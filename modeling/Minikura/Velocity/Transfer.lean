import Minikura.Data.Json
import Minikura.Data.OrderedMap

/-!
# Proxy transfers

A proxy that migrates its players gives each of them a signed token as a cookie; the proxy
they arrive at reads it back and completes the future their login waits for. The JWT library
is `sign` and `unsign`, which reads the claims of a token signed with a secret.

## Main definitions

* `mintCookie` — the cookie of a player, in `migratePlayersToServer`.
* `onCookieReceiveEvent` — what the arrival of a cookie does to the futures.

## Main results

* `acceptedServer_eq_some` — exactly which cookies name a server.
* `transfer_cookie` — a minted cookie names its server, and any other only what it should.
-/

namespace Minikura.Velocity

/-! ## Bytes and texts -/

/-- How many bytes stand for one replacement character, where no character starts. -/
def malformedLength : List UInt8 → Nat
  | b₁ :: b₂ :: rest =>
    let continues (b : UInt8) : Bool := 0x80 ≤ b && b ≤ 0xBF
    if 0xE0 ≤ b₁ ∧ b₁ ≤ 0xEF then
      if !continues b₂ || b₁ = 0xE0 && b₂ < 0xA0 then 1
      else if rest.head?.any continues then 3
      else 2
    else if 0xF0 ≤ b₁ ∧ b₁ ≤ 0xF4 then
      if !continues b₂ || b₁ = 0xF0 && b₂ < 0x90 || b₁ = 0xF4 && 0x90 ≤ b₂ then 1
      else if rest.head?.any continues then 3
      else 2
    else 1
  | _ => 1

def decodeFrom (bytes : ByteArray) : Nat → Nat → List Char
  | 0, _ => []
  | fuel + 1, i =>
    if bytes.size ≤ i then []
    else match bytes.utf8DecodeChar? i with
      | some c => c :: decodeFrom bytes fuel (i + c.utf8Size)
      | none => '\uFFFD' ::
        decodeFrom bytes fuel (i + malformedLength (bytes.data.toList.drop i))

/-- `String(bytes)` replaces what is malformed. -/
def stringOf (bytes : ByteArray) : String :=
  if h : bytes.IsValidUTF8 then String.fromUTF8 bytes h
  else String.ofList (decodeFrom bytes bytes.size 0)

theorem stringOf_toUTF8 (s : String) : stringOf s.toUTF8 = s := by
  rw [stringOf, String.toUTF8_eq_toByteArray, dif_pos s.isValidUTF8]
  rfl

/-! ## Tokens -/

structure DecodedJWT where
  issuer : Option String
  /-- In seconds. -/
  expiresAt : Option Int
  claims : List (String × Json)

/-- `decodedJwt.claims[name]?.asString()` is null also if the claim is not a text. -/
def DecodedJWT.asString (jwt : DecodedJWT) (name : String) : Option String :=
  (jwt.claims.lookup name).bind Json.str?

structure Proxy where
  /-- `MINIKURA_JWT_SECRET` -/
  jwtSecretEnv : Option String
  proxyId : String
  /-- `redisBungeeApi.allProxies`, if it does not throw. -/
  allProxies : Option (List String)

def Proxy.jwtSecret (proxy : Proxy) : String := proxy.jwtSecretEnv.getD "secret"

structure Player where
  uniqueId : String
  /-- `currentServer.serverInfo.name` -/
  currentServer : Option String
  isActive : Bool

variable (sign : String → DecodedJWT → String) (unsign : String → String → Option DecodedJWT)

/-- The claims of a token minted at a time given in milliseconds. -/
def transferClaims (proxy : Proxy) (player : Player) (server : String) (mintedAt : Int) :
    DecodedJWT where
  issuer := some "minikura"
  expiresAt := some ((mintedAt + 60 * 5 * 1000) / 1000)
  claims := [("uuid", .str player.uniqueId), ("server", .str server),
    ("origin", .str proxy.proxyId)]

/-- The cookie `migratePlayersToServer` stores with a player it transfers. -/
def mintCookie (proxy : Proxy) (player : Player) (mintedAt : Int) : Option ByteArray :=
  match player.currentServer with
  | none => none
  | some server =>
    if !player.isActive then none
    else some (sign proxy.jwtSecret (transferClaims proxy player server mintedAt)).toUTF8

/-! ## Cookies -/

inductive Thrown where
  | verification
  | nullPointer
  | redis
deriving Repr, DecidableEq

/-- `jwtVerifier.verify`: a token without an expiry never expires. -/
def verify (proxy : Proxy) (now : Int) (token : String) : Except Thrown DecodedJWT :=
  match unsign proxy.jwtSecret token with
  | none => .error .verification
  | some jwt =>
    if jwt.issuer = some "minikura" ∧ jwt.expiresAt.all (now < · * 1000) then .ok jwt
    else .error .verification

/-- What the `try` block makes of a verified token. -/
def checkClaims (proxy : Proxy) (checkedAt : Int) (player : Player) (decodedJwt : DecodedJWT) :
    Except Thrown (Option String) :=
  match decodedJwt.expiresAt with
  | none => .error .nullPointer
  | some expiresAt =>
    if expiresAt * 1000 < checkedAt then .ok none
    else if decodedJwt.asString "uuid" ≠ some player.uniqueId then .ok none
    else match decodedJwt.asString "server", decodedJwt.asString "origin" with
      | none, _ => .ok none
      | some server, none => .ok (some server)
      | some server, some origin =>
        match proxy.allProxies with
        | none => .error .redis
        | some allProxies => .ok (if origin ∉ allProxies then none else some server)

/-- What the `try` block completes the future with. -/
def acceptedServer (proxy : Proxy) (verifiedAt checkedAt : Int) (player : Player)
    (data : ByteArray) : Except Thrown (Option String) := do
  let stringData := stringOf data
  let decodedJwt ← verify unsign proxy verifiedAt stringData
  checkClaims proxy checkedAt player decodedJwt

inductive Future where
  | pending
  | completed (value : Option String)
deriving Repr, DecidableEq

/-- Only the first completion counts. -/
def Future.complete : Future → Option String → Future
  | .pending, value => .completed value
  | .completed value, _ => .completed value

/-- `cookieFutures[id]?.complete(value)` -/
def completeFuture (cookieFutures : List (String × Future)) (id : String)
    (value : Option String) : List (String × Future) :=
  match cookieFutures.lookup id with
  | none => cookieFutures
  | some future => setEntry cookieFutures id (future.complete value)

structure CookieReceiveEvent where
  player : Player
  originalKey : Option String
  originalData : Option ByteArray

inductive ForwardResult where
  | forward
  | handled
deriving Repr, DecidableEq

/-- The futures after a cookie has arrived, and what becomes of the event. -/
def onCookieReceiveEvent (proxy : Proxy) (verifiedAt checkedAt : Int)
    (cookieFutures : List (String × Future)) (event : CookieReceiveEvent) :
    List (String × Future) × ForwardResult :=
  if event.originalKey ≠ some "minikura:transfer_packet" then (cookieFutures, .handled)
  else match event.originalData with
    | none => (completeFuture cookieFutures event.player.uniqueId none, .handled)
    | some data =>
      match acceptedServer unsign proxy verifiedAt checkedAt event.player data with
      | .ok server => (completeFuture cookieFutures event.player.uniqueId server, .handled)
      | .error _ => (completeFuture cookieFutures event.player.uniqueId none, .forward)

/-! ## Which cookies name a server -/

/-- The cookie is a token signed with the secret, from the issuer and unexpired, whose
claims name the player, the server and no unknown proxy. -/
structure Grants (proxy : Proxy) (verifiedAt checkedAt : Int) (player : Player)
    (data : ByteArray) (server : String) (jwt : DecodedJWT) : Prop where
  signed : unsign proxy.jwtSecret (stringOf data) = some jwt
  issuer : jwt.issuer = some "minikura"
  unexpired : ∃ expiresAt, jwt.expiresAt = some expiresAt ∧ verifiedAt < expiresAt * 1000 ∧
    checkedAt ≤ expiresAt * 1000
  uuid : jwt.claims.lookup "uuid" = some (.str player.uniqueId)
  server : jwt.claims.lookup "server" = some (.str server)
  origin : ∀ origin, jwt.claims.lookup "origin" = some (.str origin) →
    ∃ allProxies, proxy.allProxies = some allProxies ∧ origin ∈ allProxies

section Cookies

variable {sign unsign} {proxy : Proxy} {verifiedAt checkedAt : Int} {player : Player}
  {data : ByteArray} {server : String} {jwt : DecodedJWT}

theorem DecodedJWT.asString_eq_some {name value : String} :
    jwt.asString name = some value ↔ jwt.claims.lookup name = some (.str value) := by
  rw [DecodedJWT.asString, Option.bind_eq_some_iff]
  constructor
  · rintro ⟨j, hj, hstr⟩
    cases j <;> cases hstr
    exact hj
  · intro h
    exact ⟨_, h, rfl⟩

theorem verify_eq_ok {now : Int} {token : String} :
    verify unsign proxy now token = .ok jwt ↔ unsign proxy.jwtSecret token = some jwt ∧
      jwt.issuer = some "minikura" ∧ jwt.expiresAt.all (now < · * 1000) := by
  unfold verify
  split
  · rename_i h
    simp [h]
  · rename_i jwt' h
    rw [h, Option.some.injEq]
    split_ifs with hvalid
    · rw [Except.ok.injEq]
      exact ⟨fun he => he ▸ ⟨rfl, hvalid⟩, And.left⟩
    · refine ⟨nofun, fun ⟨he, hvalid'⟩ => absurd (he ▸ hvalid') hvalid⟩

theorem checkClaims_eq_some :
    checkClaims proxy checkedAt player jwt = .ok (some server) ↔
      (∃ expiresAt, jwt.expiresAt = some expiresAt ∧ checkedAt ≤ expiresAt * 1000) ∧
      jwt.asString "uuid" = some player.uniqueId ∧ jwt.asString "server" = some server ∧
      ∀ origin, jwt.asString "origin" = some origin →
        ∃ allProxies, proxy.allProxies = some allProxies ∧ origin ∈ allProxies := by
  unfold checkClaims
  cases jwt.expiresAt with
  | none => simp
  | some expiresAt =>
    by_cases hexpired : expiresAt * 1000 < checkedAt
    · simp only [hexpired, if_true]
      refine ⟨nofun, fun ⟨⟨e, he, hle⟩, _⟩ => ?_⟩
      obtain rfl := Option.some.inj he
      omega
    by_cases huuid : jwt.asString "uuid" = some player.uniqueId
    · have hle : checkedAt ≤ expiresAt * 1000 := by omega
      cases jwt.asString "server" with
      | none => simp [hexpired, huuid]
      | some server' =>
        cases jwt.asString "origin" with
        | none => simp [hexpired, huuid, hle]
        | some origin =>
          cases proxy.allProxies with
          | none => simp [hexpired, huuid]
          | some allProxies =>
            by_cases hmem : origin ∈ allProxies <;> simp [hexpired, huuid, hle, hmem]
    · simp [hexpired, huuid]

/-- A cookie names a server if and only if it grants it. -/
theorem acceptedServer_eq_some :
    acceptedServer unsign proxy verifiedAt checkedAt player data = .ok (some server) ↔
      ∃ jwt, Grants unsign proxy verifiedAt checkedAt player data server jwt := by
  constructor
  · intro h
    cases hverify : verify unsign proxy verifiedAt (stringOf data) with
    | error e =>
      rw [acceptedServer, hverify] at h
      cases h
    | ok jwt =>
      rw [acceptedServer, hverify] at h
      obtain ⟨hsigned, hissuer, hverified⟩ := verify_eq_ok.mp hverify
      obtain ⟨⟨expiresAt, hexp, hle⟩, huuid, hserver, horigin⟩ := checkClaims_eq_some.mp h
      have hlt : verifiedAt < expiresAt * 1000 := by simpa [hexp] using hverified
      exact ⟨jwt, hsigned, hissuer, ⟨expiresAt, hexp, hlt, hle⟩,
        DecodedJWT.asString_eq_some.mp huuid, DecodedJWT.asString_eq_some.mp hserver,
        fun origin ho => horigin origin (DecodedJWT.asString_eq_some.mpr ho)⟩
  · rintro ⟨jwt, h⟩
    obtain ⟨expiresAt, hexp, hlt, hle⟩ := h.unexpired
    have hverify : verify unsign proxy verifiedAt (stringOf data) = .ok jwt :=
      verify_eq_ok.mpr ⟨h.signed, h.issuer, by simpa [hexp] using hlt⟩
    rw [acceptedServer, hverify]
    exact checkClaims_eq_some.mpr ⟨⟨expiresAt, hexp, hle⟩,
      DecodedJWT.asString_eq_some.mpr h.uuid, DecodedJWT.asString_eq_some.mpr h.server,
      fun origin ho => h.origin origin (DecodedJWT.asString_eq_some.mp ho)⟩

/-- What is minted grants the server the player was on, until it expires. -/
theorem grants_mintCookie {from' : Proxy} {mintedAt : Int}
    (hsign : unsign from'.jwtSecret
      (sign from'.jwtSecret (transferClaims from' player server mintedAt)) =
        some (transferClaims from' player server mintedAt))
    (hsecret : from'.jwtSecretEnv = proxy.jwtSecretEnv)
    (hknown : ∃ allProxies, proxy.allProxies = some allProxies ∧ from'.proxyId ∈ allProxies)
    (hcurrent : player.currentServer = some server)
    (hmint : mintCookie sign from' player mintedAt = some data)
    (hverified : verifiedAt < (mintedAt + 60 * 5 * 1000) / 1000 * 1000)
    (hchecked : checkedAt < (mintedAt + 60 * 5 * 1000) / 1000 * 1000) :
    Grants unsign proxy verifiedAt checkedAt player data server
      (transferClaims from' player server mintedAt) := by
  have hsame : proxy.jwtSecret = from'.jwtSecret := by
    rw [Proxy.jwtSecret, Proxy.jwtSecret, hsecret]
  have hdata : data =
      (sign from'.jwtSecret (transferClaims from' player server mintedAt)).toUTF8 := by
    simp only [mintCookie, hcurrent] at hmint
    split_ifs at hmint
    exact (Option.some.inj hmint).symm
  constructor
  · rw [hdata, stringOf_toUTF8, hsame, hsign]
  · rfl
  · exact ⟨_, rfl, hverified, Int.le_of_lt hchecked⟩
  · rfl
  · rfl
  · intro origin horigin
    obtain rfl : from'.proxyId = origin := by
      simpa [transferClaims, List.lookup_cons] using horigin
    exact hknown

/-! ## The futures -/

theorem lookup_completeFuture {cookieFutures : List (String × Future)} {id : String}
    (value : Option String) (h : cookieFutures.lookup id = some .pending) :
    (completeFuture cookieFutures id value).lookup id = some (.completed value) := by
  rw [completeFuture, h]
  simp [Future.complete]

/-- The futures of the other players stay as they are. -/
theorem lookup_onCookieReceiveEvent_ne {cookieFutures : List (String × Future)}
    {event : CookieReceiveEvent} {id : String} (h : id ≠ event.player.uniqueId) :
    (onCookieReceiveEvent unsign proxy verifiedAt checkedAt cookieFutures event).1.lookup id =
      cookieFutures.lookup id := by
  have hcomplete : ∀ value,
      (completeFuture cookieFutures event.player.uniqueId value).lookup id =
        cookieFutures.lookup id := by
    intro value
    unfold completeFuture
    split
    · rfl
    · rw [lookup_setEntry, if_neg h]
  unfold onCookieReceiveEvent
  split_ifs
  · rfl
  · split
    · exact hcomplete none
    · split <;> exact hcomplete _

/-- Under the transfer key the future of the player is always completed, and with a server
only if the cookie grants it. -/
theorem lookup_onCookieReceiveEvent {cookieFutures : List (String × Future)}
    (h : cookieFutures.lookup player.uniqueId = some .pending) :
    ∃ value, (onCookieReceiveEvent unsign proxy verifiedAt checkedAt cookieFutures
        ⟨player, some "minikura:transfer_packet", some data⟩).1.lookup player.uniqueId =
          some (.completed value) ∧
      ∀ server, value = some server ↔
        ∃ jwt, Grants unsign proxy verifiedAt checkedAt player data server jwt := by
  simp only [onCookieReceiveEvent, ne_eq, not_true_eq_false, if_false,
    ← acceptedServer_eq_some]
  cases acceptedServer unsign proxy verifiedAt checkedAt player data with
  | ok value => exact ⟨value, lookup_completeFuture value h, fun server => by simp⟩
  | error e => exact ⟨none, lookup_completeFuture none h, fun server => by simp⟩

/-- For a player whose future is pending: a cookie minted on a known proxy with the same
secret completes it with the server the player was on, and any bytes complete it, with a
server only if they grant it. -/
theorem transfer_cookie {cookieFutures : List (String × Future)}
    (h : cookieFutures.lookup player.uniqueId = some .pending) :
    (∀ (origin : Proxy) (mintedAt : Int), origin.jwtSecretEnv = proxy.jwtSecretEnv →
      (∃ allProxies, proxy.allProxies = some allProxies ∧ origin.proxyId ∈ allProxies) →
      unsign origin.jwtSecret
        (sign origin.jwtSecret (transferClaims origin player server mintedAt)) =
          some (transferClaims origin player server mintedAt) →
      player.currentServer = some server → mintCookie sign origin player mintedAt = some data →
      verifiedAt < (mintedAt + 60 * 5 * 1000) / 1000 * 1000 →
      checkedAt < (mintedAt + 60 * 5 * 1000) / 1000 * 1000 →
      (onCookieReceiveEvent unsign proxy verifiedAt checkedAt cookieFutures
        ⟨player, some "minikura:transfer_packet", some data⟩).1.lookup player.uniqueId =
          some (.completed (some server))) ∧
    ∃ value, (onCookieReceiveEvent unsign proxy verifiedAt checkedAt cookieFutures
        ⟨player, some "minikura:transfer_packet", some data⟩).1.lookup player.uniqueId =
          some (.completed value) ∧
      ∀ server, value = some server ↔
        ∃ jwt, Grants unsign proxy verifiedAt checkedAt player data server jwt := by
  obtain ⟨value, hvalue, hiff⟩ :=
    @lookup_onCookieReceiveEvent unsign proxy verifiedAt checkedAt player data _ h
  refine ⟨fun origin mintedAt hsecret hknown hsign hcurrent hmint hverified hchecked => ?_,
    value, hvalue, hiff⟩
  have hgrants := grants_mintCookie hsign hsecret hknown hcurrent hmint hverified hchecked
  rw [hvalue, (hiff server).mpr ⟨_, hgrants⟩]

end Cookies

/-! ## Tokens signed with the secret `secret` -/

def steve : Player := ⟨"069a79f4-44e9-4726-a5be-fca90e38aaf5", some "lobby", true⟩

def proxyA : Proxy := ⟨none, "proxy-a", some ["proxy-a", "proxy-b"]⟩
def proxyB : Proxy := ⟨none, "proxy-b", some ["proxy-a", "proxy-b"]⟩

def steveToken : String :=
  "eyJhbGciOiJIUzI1NiIsInR5cCI6IkpXVCJ9.eyJpc3MiOiJtaW5pa3VyYSIsInV1aWQiOiIwNjlhNzlmNC00NGU5LTQ3" ++
  "MjYtYTViZS1mY2E5MGUzOGFhZjUiLCJzZXJ2ZXIiOiJsb2JieSIsIm9yaWdpbiI6InByb3h5LWEiLCJleHAiOjE3MDAw" ++
  "MDAzMDB9.BVH0CtBegwENJAM728HLkS8gbGjLli8AHOToQJEnZ-Y"

def steveClaims : DecodedJWT := transferClaims proxyA steve "lobby" 1700000000000

/-- The signature of the one token, and the one token it accepts. -/
def signSteve : String → DecodedJWT → String := fun _ _ => steveToken
def unsignSteve : String → String → Option DecodedJWT := fun secret token =>
  if secret = "secret" ∧ token = steveToken then some steveClaims else none

theorem transfer_cookie_steve :
    (onCookieReceiveEvent unsignSteve proxyB 1700000001000 1700000001001
      [(steve.uniqueId, .pending)]
      ⟨steve, some "minikura:transfer_packet", some steveToken.toUTF8⟩).1.lookup steve.uniqueId =
        some (.completed (some "lobby")) :=
  (@transfer_cookie signSteve unsignSteve _ _ _ _ _ _ _ rfl).1 proxyA 1700000000000 rfl
    ⟨_, rfl, by decide⟩ (if_pos ⟨rfl, rfl⟩) rfl rfl (by decide) (by decide)

/-- The same claims, but for the origin. -/
def numericToken : String :=
  "eyJhbGciOiJIUzI1NiIsInR5cCI6IkpXVCJ9.eyJpc3MiOiJtaW5pa3VyYSIsInV1aWQiOiIwNjlhNzlmNC00NGU5LTQ3" ++
  "MjYtYTViZS1mY2E5MGUzOGFhZjUiLCJzZXJ2ZXIiOiJsb2JieSIsIm9yaWdpbiI6NDIsImV4cCI6MTcwMDAwMDMwMH0." ++
  "gztWj9Hkvz4sVJ1RxMlOFoWcmhBGlPlHg39LBqqR4d8"

def numericClaims : DecodedJWT where
  issuer := some "minikura"
  expiresAt := some 1700000300
  claims := [("uuid", .str steve.uniqueId), ("server", .str "lobby"), ("origin", .num 42)]

def unsignNumeric : String → String → Option DecodedJWT := fun secret token =>
  if secret = "secret" ∧ token = numericToken then some numericClaims else none

/-- An origin that is not a text passes for a missing one. -/
theorem numeric_origin_accepted : ¬ ∀ (data : ByteArray) (server : String),
    (onCookieReceiveEvent unsignNumeric proxyB 1700000001000 1700000001001
      [(steve.uniqueId, .pending)]
      ⟨steve, some "minikura:transfer_packet", some data⟩).1.lookup steve.uniqueId =
        some (.completed (some server)) →
    ∃ jwt, unsignNumeric proxyB.jwtSecret (stringOf data) = some jwt ∧
      (jwt.claims.lookup "origin" = none ∨
        ∃ origin, jwt.claims.lookup "origin" = some (.str origin) ∧
          origin ∈ ["proxy-a", "proxy-b"]) := by
  intro h
  have hunsign : unsignNumeric proxyB.jwtSecret (stringOf numericToken.toUTF8) =
      some numericClaims := by
    rw [stringOf_toUTF8]
    exact if_pos ⟨rfl, rfl⟩
  have hgrants : Grants unsignNumeric proxyB 1700000001000 1700000001001 steve
      numericToken.toUTF8 "lobby" numericClaims :=
    ⟨hunsign, rfl, ⟨_, rfl, by decide, by decide⟩, rfl, rfl, nofun⟩
  obtain ⟨value, hvalue, hiff⟩ :=
    @lookup_onCookieReceiveEvent unsignNumeric proxyB 1700000001000 1700000001001 steve
      numericToken.toUTF8 [(steve.uniqueId, .pending)] rfl
  rw [(hiff "lobby").mpr ⟨_, hgrants⟩] at hvalue
  obtain ⟨jwt, hjwt, horigin⟩ := h _ _ hvalue
  obtain rfl := Option.some.inj (hunsign.symm.trans hjwt)
  rcases horigin with hnone | ⟨origin, hstr, -⟩
  · cases hnone
  · cases hstr

end Minikura.Velocity
