import Minikura.Backend.PluginRoutes
import Minikura.Concurrency.Machine
import Minikura.Data.EntrySet

/-!
# Change notifications

A proxy that listens at `/servers/ws` is added to the clients when its API key has been looked
up, and removed when its connection is closed. There can be any number of connections. The
clients are the objects the `open` handlers are called with; whether `close` is called with
the same object is up to the framework.

## Main definitions

* `WebSocketService` — the clients and the broadcasts.
* `Wrappers` — the objects the handlers of a connection are called with.
* `System.next` — the steps of the handlers of all connections.

## Main results

* `broadcast_eq` — a broadcast tries every client once and keeps those that do not throw.
* `next_exact_iff` — an `open` that comes after the close spoils the clients, and a `close`
  with another object than the client; nothing else does.
* `client_set_exact` — if there is none of these, the clients are proxies that are connected.
-/

namespace Minikura.Backend.Notifications

open Routes Concurrency

variable {α β : Type} [DecidableEq α] [DecidableEq β]

/-! ## The service -/

structure WebSocketService (β : Type) where
  clients : EntrySet β

structure Change where
  action : String
  serverType : String
  serverId : String
  timestamp : String
deriving Repr, DecidableEq

def Change.message (change : Change) : Json :=
  .obj [("type", .str "SERVER_CHANGE"), ("action", .str change.action),
    ("serverType", .str change.serverType), ("serverId", .str change.serverId),
    ("timestamp", .str change.timestamp)]

namespace WebSocketService

def addClient (service : WebSocketService β) (client : β) : WebSocketService β :=
  ⟨service.clients.add client⟩

def removeClient (service : WebSocketService β) (client : β) : WebSocketService β :=
  ⟨service.clients.delete client⟩

/-- What has been sent to whom so far, and how often that failed. -/
structure Progress (β : Type) where
  sent : List (β × Json)
  failedClients : Nat

/-- One round of the loop, for a `send` that throws for some clients. -/
def sendTo (message : Json) (throws : β → Bool) (client : β) :
    EntrySet β × Progress β → EntrySet β × Progress β
  | (clients, progress) =>
    let sent := progress.sent ++ [(client, message)]
    if throws client then (clients.delete client, ⟨sent, progress.failedClients + 1⟩)
    else (clients, ⟨sent, progress.failedClients⟩)

def broadcast (service : WebSocketService β) (change : Change) (throws : β → Bool) :
    WebSocketService β × Progress β :=
  let (clients, progress) :=
    service.clients.forEach ⟨[], 0⟩ (sendTo change.message throws)
  (⟨clients⟩, progress)

def getClientCount (service : WebSocketService β) : Nat := service.clients.members.length

end WebSocketService

section Broadcast

omit [DecidableEq β] in
theorem foldl_sent {throws : β → Bool} (message : Json) (clients : List β)
    (progress : WebSocketService.Progress β) :
    clients.foldl (fun progress client => (⟨progress.sent ++ [(client, message)],
        if throws client then progress.failedClients + 1 else progress.failedClients⟩ :
        WebSocketService.Progress β)) progress =
      ⟨progress.sent ++ clients.map (·, message),
        progress.failedClients + clients.countP throws⟩ := by
  induction clients generalizing progress with
  | nil => simp
  | cons client clients ih =>
    rw [List.foldl_cons, ih, List.countP_cons]
    cases throws client <;> simp [Nat.add_comm, Nat.add_left_comm]

/-- A broadcast tries every client once, in order, and keeps those for which `send` returns. -/
theorem broadcast_eq (service : WebSocketService β) (change : Change) (throws : β → Bool) :
    (service.broadcast change throws).1.clients.members =
      service.clients.members.filter (!throws ·) ∧
    (service.broadcast change throws).2 = ⟨service.clients.members.map (·, change.message),
      service.clients.members.countP throws⟩ := by
  have hbody : ∀ client clients (progress : WebSocketService.Progress β),
      WebSocketService.sendTo change.message throws client (clients, progress) =
        (if throws client then clients.delete client else clients,
          ⟨progress.sent ++ [(client, change.message)],
            if throws client then progress.failedClients + 1 else progress.failedClients⟩) := by
    intro client clients progress
    unfold WebSocketService.sendTo
    dsimp only
    split_ifs <;> rfl
  obtain ⟨hmembers, hprogress⟩ := EntrySet.forEach_eq hbody service.clients ⟨[], 0⟩
  refine ⟨hmembers, ?_⟩
  rw [foldl_sent, List.nil_append, Nat.zero_add] at hprogress
  exact hprogress

end Broadcast

/-! ## Connections -/

/-- The objects the framework calls the handlers of a connection with: `open` with one, `close`
with the same or another. Different connections share none. -/
structure Wrappers (α β : Type) where
  opening : α → β
  closing : α → β
  opening_injective : Function.Injective opening
  opening_ne_closing : ∀ c d, c ≠ d → opening c ≠ closing d

inductive Stage where
  | absent
  /-- `open` waits for `findApiKeyOwner`. -/
  | pending
  | opened
deriving Repr, DecidableEq

structure Conn where
  stage : Stage := .absent
  authorization : Option String := none
  /-- What the two queries of `findApiKeyOwner` have returned. -/
  server : Option (Option String) := none
  proxy : Option (Option String) := none
  closeRequested : Bool := false
  closed : Bool := false
deriving Repr, DecidableEq

/-- The answer of `findApiKeyOwner`, once it has one. -/
def Conn.owner (conn : Conn) : Option (Option ApiKeyOwner) :=
  if bearerToken conn.authorization = "" then some none
  else match conn.server, conn.proxy with
    | some (some id), some _ => some (some ⟨.server, id⟩)
    | some none, some (some id) => some (some ⟨.reverseProxy, id⟩)
    | some none, some none => some none
    | _, _ => none

def Conn.isProxy (conn : Conn) : Bool :=
  match conn.owner with
  | some (some owner) => owner.kind = .reverseProxy
  | _ => false

def serverWithKey (tables : Tables) (apiKey : String) : Option String :=
  (tables.servers.find? (·.row.apiKey = apiKey)).map (·.row.id)

def proxyWithKey (tables : Tables) (apiKey : String) : Option String :=
  (tables.proxies.find? (·.row.apiKey = apiKey)).map (·.row.id)

/-- If nothing is written between the two queries, the answer is that of the handler. -/
theorem exec_findApiKeyOwner {conn : Conn} {tables : Tables} {owner : Option ApiKeyOwner}
    (hserver : conn.server = some (serverWithKey tables (bearerToken conn.authorization)))
    (hproxy : conn.proxy = some (proxyWithKey tables (bearerToken conn.authorization)))
    (h : conn.owner = some owner) :
    (findApiKeyOwner (bearerToken conn.authorization)).exec tables = (.ok owner, tables) := by
  unfold findApiKeyOwner
  unfold Conn.owner serverWithKey proxyWithKey at *
  rw [hserver, hproxy] at h
  split_ifs at h ⊢ with hempty
  · cases h
    rfl
  · simp only [Stateful.exec_bind, Stateful.exec_get]
    cases hs : tables.servers.find? (·.row.apiKey = bearerToken conn.authorization) with
    | some server =>
      simp only [hs, Option.map_some] at h
      cases h
      rfl
    | none =>
      cases hp : tables.proxies.find? (·.row.apiKey = bearerToken conn.authorization) with
      | some proxy =>
        simp only [hs, hp, Option.map_some, Option.map_none] at h
        cases h
        rfl
      | none =>
        simp only [hs, hp, Option.map_none] at h
        cases h
        rfl

/-! ## Steps -/

structure Broadcast (β : Type) where
  /-- The clients when it began. -/
  clients : List β
  progress : WebSocketService.Progress β

structure System (α β : Type) where
  tables : Tables
  conns : α → Conn := fun _ => {}
  service : WebSocketService β := ⟨.empty⟩
  broadcasts : List (Broadcast β) := []

def System.set (x : System α β) (c : α) (conn : Conn) : System α β :=
  { x with conns := Function.update x.conns c conn }

inductive Label (α β : Type) where
  | change (tables : Tables)
  | connect (c : α) (authorization : Option String)
  | answerServer (c : α)
  | answerProxy (c : α)
  /-- A query fails. -/
  | reject (c : α)
  | finish (c : α)
  | close (c : α)
  | broadcast (change : Change) (throws : β → Bool)

section Handlers

variable (ws : Wrappers α β)

/-- `open` after the lookup. -/
def System.finishOpen (x : System α β) (c : α) (owner : Option ApiKeyOwner) : System α β :=
  let conn := { x.conns c with stage := .opened }
  if owner.map (·.kind) ≠ some .reverseProxy then x.set c { conn with closeRequested := true }
  else { x.set c conn with service := x.service.addClient (ws.opening c) }

def System.next (x : System α β) : Label α β → Option (System α β)
  | .change tables => some { x with tables }
  | .connect c authorization =>
    if (x.conns c).stage = .absent then
      some (x.set c { x.conns c with stage := .pending, authorization })
    else none
  | .answerServer c =>
    if (x.conns c).stage = .pending ∧ (x.conns c).server = none then
      some (x.set c { x.conns c with
        server := some (serverWithKey x.tables (bearerToken (x.conns c).authorization)) })
    else none
  | .answerProxy c =>
    if (x.conns c).stage = .pending ∧ (x.conns c).proxy = none then
      some (x.set c { x.conns c with
        proxy := some (proxyWithKey x.tables (bearerToken (x.conns c).authorization)) })
    else none
  | .reject c =>
    if (x.conns c).stage = .pending then some (x.set c { x.conns c with stage := .opened })
    else none
  | .finish c =>
    if (x.conns c).stage = .pending then (x.conns c).owner.map (x.finishOpen ws c) else none
  | .close c =>
    if (x.conns c).stage ≠ .absent ∧ (x.conns c).closed = false then
      some { x.set c { x.conns c with closed := true } with
        service := x.service.removeClient (ws.closing c) }
    else none
  | .broadcast change throws =>
    let (service, progress) := x.service.broadcast change throws
    some { x with
      service
      broadcasts := x.broadcasts ++ [⟨x.service.clients.members, progress⟩] }

/-! ## What the steps do to the clients -/

def System.clients (x : System α β) : List β := x.service.clients.members

/-- No `open` has a pending step. -/
def System.Settled (x : System α β) : Prop := ∀ c, (x.conns c).stage ≠ .pending

/-- The clients are connections of reverse proxies that have not been closed. -/
def System.Exact (x : System α β) : Prop :=
  ∀ w ∈ x.clients, ∃ c, w = ws.opening c ∧ (x.conns c).isProxy = true ∧ (x.conns c).closed = false

/-- One attempt for each client. -/
def Broadcast.Complete (b : Broadcast β) : Prop :=
  ∀ w ∈ b.clients, b.progress.sent.countP (·.1 = w) = 1

/-- A reverse proxy whose lookup ends is still connected, and `close` is called with the client
if the connection is one. -/
def Careful (x : System α β) : Label α β → Prop
  | .finish c => (x.conns c).isProxy = true → (x.conns c).closed = false
  | .close c => ws.opening c ∈ x.clients → ws.closing c = ws.opening c
  | _ => True

/-- The handlers of the clients are through. -/
def System.Opened (x : System α β) : Prop :=
  ∀ w ∈ x.clients, ∃ c, w = ws.opening c ∧ (x.conns c).stage = .opened

end Handlers

section Steps

variable {ws : Wrappers α β} {x y : System α β} {l : Label α β}

/-- A step changes a connection that is no client yet, adds or removes a client, broadcasts,
or changes the tables only. -/
theorem next_effect (h : x.next ws l = some y) :
    (Careful ws x l ∧ y.broadcasts = x.broadcasts ∧ y.service = x.service ∧
      ∀ c, (x.conns c).stage = .opened → y.conns c = x.conns c) ∨
    (∃ c, l = .finish c ∧ (x.conns c).isProxy = true ∧ y.broadcasts = x.broadcasts ∧
      y.service = x.service.addClient (ws.opening c) ∧
      y.conns = Function.update x.conns c { x.conns c with stage := .opened }) ∨
    (∃ c, l = .close c ∧ y.broadcasts = x.broadcasts ∧
      y.service = x.service.removeClient (ws.closing c) ∧
      y.conns = Function.update x.conns c { x.conns c with closed := true }) ∨
    (∃ change throws, l = .broadcast change throws ∧ y.conns = x.conns ∧
      y.service = (x.service.broadcast change throws).1 ∧
      y.broadcasts = x.broadcasts ++ [⟨x.clients, (x.service.broadcast change throws).2⟩]) := by
  have hother : ∀ (c : α) (conn : Conn), (x.conns c).stage ≠ .opened →
      ∀ d, (x.conns d).stage = .opened → Function.update x.conns c conn d = x.conns d := by
    intro c conn hc d hd
    refine Function.update_of_ne ?_ _ _
    rintro rfl
    exact hc hd
  cases l <;> simp only [System.next] at h
  case change tables =>
    obtain rfl := Option.some.inj h
    exact .inl ⟨trivial, rfl, rfl, fun _ _ => rfl⟩
  case connect c authorization =>
    split_ifs at h with hstage
    obtain rfl := Option.some.inj h
    exact .inl ⟨trivial, rfl, rfl, hother c _ (by simp [hstage])⟩
  case answerServer c =>
    split_ifs at h with hstage
    obtain rfl := Option.some.inj h
    exact .inl ⟨trivial, rfl, rfl, hother c _ (by simp [hstage.1])⟩
  case answerProxy c =>
    split_ifs at h with hstage
    obtain rfl := Option.some.inj h
    exact .inl ⟨trivial, rfl, rfl, hother c _ (by simp [hstage.1])⟩
  case reject c =>
    split_ifs at h with hstage
    obtain rfl := Option.some.inj h
    exact .inl ⟨trivial, rfl, rfl, hother c _ (by simp [hstage])⟩
  case finish c =>
    split_ifs at h with hstage
    obtain ⟨owner, howner, rfl⟩ := Option.map_eq_some_iff.mp h
    unfold System.finishOpen
    dsimp only
    split_ifs with hkind
    · have hproxy : (x.conns c).isProxy = false := by
        unfold Conn.isProxy
        rw [howner]
        cases owner <;> simp_all
      refine .inl ⟨fun hp => absurd (hp.symm.trans hproxy) (by decide), rfl, rfl,
        hother c _ (by simp [hstage])⟩
    · push Not at hkind
      obtain ⟨owner, rfl, howned⟩ := Option.map_eq_some_iff.mp hkind
      exact .inr (.inl ⟨c, rfl, by simp [Conn.isProxy, howner, howned], rfl, rfl, rfl⟩)
  case close c =>
    split_ifs at h
    obtain rfl := Option.some.inj h
    exact .inr (.inr (.inl ⟨c, rfl, rfl, rfl, rfl⟩))
  case broadcast change throws =>
    obtain rfl := Option.some.inj h
    exact .inr (.inr (.inr ⟨change, throws, rfl, rfl, rfl, rfl⟩))

omit [DecidableEq α] in
theorem clients_addClient (v w : β) (service : WebSocketService β) :
    w ∈ (service.addClient v).clients.members ↔ w ∈ service.clients.members ∨ w = v :=
  EntrySet.mem_add

omit [DecidableEq α] in
theorem clients_removeClient (v w : β) (service : WebSocketService β) :
    w ∈ (service.removeClient v).clients.members ↔ w ∈ service.clients.members ∧ w ≠ v :=
  EntrySet.mem_delete

theorem next_opened (hx : x.Opened ws) (h : x.next ws l = some y) : y.Opened ws := by
  intro w hw
  rcases next_effect h with ⟨-, -, hservice, hconns⟩ | ⟨c, -, -, -, hservice, hconns⟩ |
    ⟨c, -, -, hservice, hconns⟩ | ⟨change, throws, -, hconns, hservice, -⟩
  all_goals rw [System.clients, hservice] at hw
  · obtain ⟨d, rfl, hd⟩ := hx w hw
    exact ⟨d, rfl, by rw [hconns d hd, hd]⟩
  · rcases (clients_addClient _ w _).mp hw with hold | rfl
    · obtain ⟨d, rfl, hd⟩ := hx w hold
      refine ⟨d, rfl, ?_⟩
      rw [hconns]
      by_cases hdc : d = c
      · simp [hdc]
      · rwa [Function.update_of_ne hdc]
    · exact ⟨c, rfl, by simp [hconns]⟩
  · obtain ⟨d, rfl, hd⟩ := hx w ((clients_removeClient _ w _).mp hw).1
    refine ⟨d, rfl, ?_⟩
    rw [hconns]
    by_cases hdc : d = c
    · subst hdc
      rwa [Function.update_self]
    · rwa [Function.update_of_ne hdc]
  · rw [(broadcast_eq _ _ _).1] at hw
    obtain ⟨d, rfl, hd⟩ := hx w (List.mem_filter.mp hw).1
    exact ⟨d, rfl, by rwa [hconns]⟩

omit [DecidableEq α] in
/-- The close of one connection does not remove the client of another. -/
theorem exact_close {c : α} (hx : x.Exact ws) (hl : Careful ws x (.close c))
    (hservice : y.service = x.service.removeClient (ws.closing c))
    (hconns : ∀ d, d ≠ c → y.conns d = x.conns d) : y.Exact ws := by
  intro w hw
  rw [System.clients, hservice, clients_removeClient] at hw
  obtain ⟨hmem, hne⟩ := hw
  obtain ⟨d, rfl, hd⟩ := hx w hmem
  refine ⟨d, rfl, ?_⟩
  have hdc : d ≠ c := by
    rintro rfl
    exact hne (hl hmem).symm
  rwa [hconns d hdc]

/-- Only an `open` that ends after the close of its connection, and a `close` that is called with
another object than the client of its connection, spoil the clients. -/
theorem next_exact_iff (hopened : x.Opened ws) (hx : x.Exact ws) (h : x.next ws l = some y) :
    y.Exact ws ↔ Careful ws x l := by
  rcases next_effect h with ⟨hstill, -, hservice, hconns⟩ | ⟨c, rfl, hproxy, -, hservice, hconns⟩ |
    ⟨c, rfl, -, hservice, hconns⟩ | ⟨change, throws, rfl, hconns, hservice, -⟩
  · refine ⟨fun _ => hstill, fun _ w hw => ?_⟩
    rw [System.clients, hservice] at hw
    obtain ⟨d, rfl, hd⟩ := hopened w hw
    obtain ⟨e, he, hexact⟩ := hx _ hw
    obtain rfl := ws.opening_injective he
    exact ⟨d, rfl, by rwa [hconns d hd]⟩
  · have hself : y.conns c = { x.conns c with stage := .opened } := by simp [hconns]
    have hproxy' : (y.conns c).isProxy = true := by
      rw [hself]
      exact hproxy
    constructor
    · intro hy _
      have hmem : ws.opening c ∈ y.clients := by
        rw [System.clients, hservice]
        exact (clients_addClient _ _ _).mpr (.inr rfl)
      obtain ⟨d, hd, -, hopen⟩ := hy _ hmem
      obtain rfl := ws.opening_injective hd
      rwa [hself] at hopen
    · intro hstill w hw
      rw [System.clients, hservice, clients_addClient] at hw
      rcases hw with hold | rfl
      · obtain ⟨d, rfl, hd⟩ := hx w hold
        refine ⟨d, rfl, ?_⟩
        by_cases hdc : d = c
        · subst hdc
          exact ⟨hproxy', by rw [hself]; exact hd.2⟩
        · rwa [hconns, Function.update_of_ne hdc]
      · exact ⟨c, rfl, hproxy', by rw [hself]; exact hstill hproxy⟩
  · constructor
    · intro hy hmem
      by_contra hother
      have hstays : ws.opening c ∈ y.clients := by
        rw [System.clients, hservice]
        exact (clients_removeClient _ _ _).mpr ⟨hmem, Ne.symm hother⟩
      obtain ⟨d, hd, -, hopen⟩ := hy _ hstays
      obtain rfl := ws.opening_injective hd
      simp [hconns] at hopen
    · exact fun hl => exact_close hx hl hservice fun d hd => by
        rw [hconns, Function.update_of_ne hd]
  · refine ⟨fun _ => trivial, fun _ w hw => ?_⟩
    rw [System.clients, hservice, (broadcast_eq _ _ _).1] at hw
    rw [hconns]
    exact hx w (List.mem_filter.mp hw).1

omit [DecidableEq α] in
/-- A broadcast attempts one send for every client. -/
theorem complete_broadcast (service : WebSocketService β) (change : Change) (throws : β → Bool) :
    Broadcast.Complete ⟨service.clients.members, (service.broadcast change throws).2⟩ := by
  intro w hw
  rw [(broadcast_eq service change throws).2]
  have hcount : (service.clients.members.map (·, change.message)).countP (·.1 = w) =
      service.clients.members.count w := by
    rw [List.countP_map]
    rfl
  rw [hcount]
  exact List.count_eq_one_of_mem service.clients.members_nodup hw

theorem next_complete (hx : ∀ b ∈ x.broadcasts, b.Complete) (h : x.next ws l = some y) :
    ∀ b ∈ y.broadcasts, b.Complete := by
  rcases next_effect h with ⟨-, hsame, -⟩ | ⟨-, -, -, hsame, -⟩ | ⟨-, -, hsame, -⟩ |
    ⟨change, throws, -, -, -, hnew⟩
  · rwa [hsame]
  · rwa [hsame]
  · rwa [hsame]
  · rw [hnew]
    intro b hb
    rcases List.mem_append.mp hb with hb | hb
    · exact hx b hb
    · rw [List.mem_singleton.mp hb]
      exact complete_broadcast x.service change throws

end Steps

/-! ## Runs -/

def System.start (tables : Tables) : System α β := { tables }

omit [DecidableEq α] [DecidableEq β] in
theorem empty_clients (tables : Tables) : (System.start tables : System α β).clients = [] := rfl

/-- If no proxy's lookup ends after its connection has been closed and no client is closed with
another object, the clients are connected proxies whenever no `open` is pending; every broadcast
is complete in any case. -/
theorem client_set_exact (ws : Wrappers α β) (tables : Tables) :
    (∀ x, Runs (System.next ws) (Careful ws) (.start tables) x → x.Settled → x.Exact ws) ∧
    ∀ x, Runs (System.next ws) Anything (.start tables) x → ∀ b ∈ x.broadcasts, b.Complete := by
  constructor
  · intro x h _
    have hinv : x.Opened ws ∧ x.Exact ws := h.invariant
      (I := fun x => x.Opened ws ∧ x.Exact ws)
      (fun _ _ _ hx hl hy => ⟨next_opened hx.1 hy, (next_exact_iff hx.1 hx.2 hy).mpr hl⟩)
      ⟨by simp [System.Opened, empty_clients], by simp [System.Exact, empty_clients]⟩
    exact hinv.2
  · intro x h
    exact h.invariant (I := fun x => ∀ b ∈ x.broadcasts, b.Complete)
      (fun _ _ _ hx _ hy => next_complete hx hy) (by simp [System.start])

instance (ws : Wrappers α β) (x : System α β) (l : Label α β) : Decidable (Careful ws x l) := by
  unfold Careful
  split <;> infer_instance

/-- All handlers of a connection are called with one object. -/
def oneObject (α : Type) : Wrappers α α where
  opening c := c
  closing c := c
  opening_injective _ _ h := h
  opening_ne_closing _ _ h := h

/-- Every handler is called with an object of its own. -/
def newObjects (α : Type) : Wrappers α (α × Bool) where
  opening c := (c, false)
  closing c := (c, true)
  opening_injective _ _ h := congrArg Prod.fst h
  opening_ne_closing _ _ _ h := Bool.false_ne_true (congrArg Prod.snd h)

def proxyTables : Tables where
  servers := []
  proxies := [⟨{
    id := "proxy", type := .velocity, description := none, externalAddress := "play.example"
    externalPort := 25565, listenPort := 25577, memory := 512, cpuRequest := none
    cpuLimit := none, serviceType := .loadBalancer, nodePort := none, apiKey := "key"
    envVariables := [] }, 0, 0⟩]

def created : Change := ⟨"CREATE", "server", "a", "2026-01-01T00:00:00.000Z"⟩

def lookupOf (c : α) : List (Label α β) :=
  [.connect c (some "Bearer key"), .answerServer c, .answerProxy c]

/-- Three connections of the proxy: the first can no longer be sent to, the last is closed. -/
def listening (a b c : α) : List (Label α α) :=
  lookupOf a ++ lookupOf b ++ lookupOf c ++
    [.finish b, .finish a, .finish c, .broadcast created (· = a), .close c]

/-- The connection is closed while its API key is looked up. -/
def closedEarly (c : α) : List (Label α β) := lookupOf c ++ [.close c, .finish c]

/-- The connection is opened and then closed. -/
def openedAndClosed (c : α) : List (Label α β) := lookupOf c ++ [.finish c, .close c]

theorem client_set_exact_listening : ∃ x : System (Fin 3) (Fin 3), x.clients = [1] ∧
    x.Exact (oneObject _) ∧ ∃ b ∈ x.broadcasts, b.clients = [1, 0, 2] ∧ b.Complete := by
  have hview : (runChecked (fun x l => decide (Careful (oneObject _) x l))
      (System.next (oneObject _)) (.start proxyTables) (listening (0 : Fin 3) 1 2)).any
        (fun x => x.clients = [1] ∧ (∀ c, (x.conns c).stage ≠ .pending) ∧
          x.broadcasts.map (·.clients) = [[1, 0, 2]]) = true := by
    decide +kernel
  rw [Option.any_eq_true] at hview
  obtain ⟨x, hrun, hview⟩ := hview
  obtain ⟨hclients, hsettled, hbroadcasts⟩ := of_decide_eq_true hview
  have run := runs_of_checked (fun _ _ h => of_decide_eq_true h) hrun
  obtain ⟨b, hb, hb'⟩ : ∃ b ∈ x.broadcasts, b.clients = [1, 0, 2] :=
    List.mem_map.mp (hbroadcasts ▸ List.mem_singleton_self _)
  exact ⟨x, hclients, (client_set_exact _ proxyTables).1 x run hsettled, b, hb, hb',
    (client_set_exact _ proxyTables).2 x run.anything b hb⟩

/-- A run after which a connection that has been closed is among the clients. -/
theorem not_exact_of_labels {ws : Wrappers (Fin 2) β} (labels : List (Label (Fin 2) β))
    (hview : (runLabels (System.next ws) (.start proxyTables) labels).any (fun x =>
      ws.opening 0 ∈ x.clients ∧ (∀ c, (x.conns c).stage ≠ .pending) ∧
        (x.conns 0).closed = true) = true) :
    ¬∀ x, Runs (System.next ws) Anything (.start proxyTables) x → x.Settled → x.Exact ws := by
  intro h
  rw [Option.any_eq_true] at hview
  obtain ⟨x, hrun, hview⟩ := hview
  obtain ⟨hclient, hsettled, hclosed⟩ := of_decide_eq_true hview
  obtain ⟨c, hc, -, hopen⟩ :=
    h x (runs_of_labels (fun _ _ _ => trivial) hrun) hsettled _ hclient
  obtain rfl := ws.opening_injective hc
  simp [hclosed] at hopen

/-- A connection that is closed stays among the clients: if it is closed during the lookup,
and if `close` is called with another object than `open`. -/
theorem closed_client :
    (¬∀ x, Runs (System.next (oneObject (Fin 2))) Anything (.start proxyTables) x →
      x.Settled → x.Exact (oneObject _)) ∧
    ¬∀ x, Runs (System.next (newObjects (Fin 2))) Anything (.start proxyTables) x →
      x.Settled → x.Exact (newObjects _) := by
  constructor
  · refine not_exact_of_labels (closedEarly 0) ?_
    decide +kernel
  · refine not_exact_of_labels (openedAndClosed 0) ?_
    decide +kernel

end Minikura.Backend.Notifications
