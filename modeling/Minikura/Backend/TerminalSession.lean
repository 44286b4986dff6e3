import Minikura.Backend.TerminalOutput
import Minikura.Backend.UserService
import Minikura.Concurrency.Machine

/-!
# Terminal connections

A connection of `/terminal/exec` waits for the session of its user and then creates the exec
socket, whose events come in between those of the client. Closing the client's side closes an
exec socket that is open at that time.

## Main definitions

* `Connection.next` — the steps of a connection.
* `Connection.NoOrphan` — no exec socket is left to itself.

## Main results

* `next_noOrphan_iff` — which steps leave an exec socket behind.
* `terminal_sessions` — runs without them leave none, and every run asks for an administrator.
-/

namespace Minikura.Backend.Terminal

open Utf8Decoder Concurrency

/-! ## Connections -/

inductive ReadyState where
  | connecting
  | opened
  | closing
  | closed
deriving Repr, DecidableEq

structure ExecRequest where
  apiPath : String
  params : List (String × String)

structure ExecSocket where
  readyState : ReadyState := .connecting
  /-- By the code here or, when the connection ends, by the package. -/
  closeCalled : Bool := false
  isConsole : Bool
  /-- `readNamespacedPodLog` has not returned. -/
  fetchingLogs : Bool := false
  request : ExecRequest
  received : List (List UInt8) := []

structure Query where
  podName : Option String := none
  container : Option String := none
  shell : Option String := none
  mode : Option String := none

structure Connection where
  query : Query
  /-- `open` waits for the session. -/
  pending : Bool := true
  /-- The user of the session that was found, and when its suspension was checked. -/
  session : Option (Option User × Time) := none
  k8sWs : Option ExecSocket := none
  /-- `ws.close()` has been called. -/
  closeRequested : Bool := false
  closeHandled : Bool := false
  sent : List Reply := []

def Connection.send (x : Connection) (replies : List Reply) : Connection :=
  { x with sent := x.sent ++ replies }

/-- `ws.close()` -/
def Connection.requestClose (x : Connection) : Connection := { x with closeRequested := true }

def Connection.setExec (x : Connection) (s : ExecSocket) : Connection := { x with k8sWs := some s }

def ExecSocket.setState (s : ExecSocket) (readyState : ReadyState) : ExecSocket :=
  { s with readyState }

def ExecSocket.close (s : ExecSocket) : ExecSocket :=
  { s with readyState := .closing, closeCalled := true }

/-! ## Opening -/

/-- What `open` finds when the session has been looked up. -/
structure Platform where
  initialized : Bool
  ns : String
  hasCluster : Bool
  /-- What the constructor of the exec socket throws. -/
  connectError : Option String

def orDefault (text : Option String) (default : String) : String :=
  match text with
  | none | some "" => default
  | some text => text

def refused (user : Option User) (now : Time) : Bool :=
  user.map (·.role) != some "admin" || user.any fun u => u.banned || isUserSuspended u now

def execCommand (query : Query) : List String :=
  if orDefault query.mode "shell" = "console" then
    ["/bin/sh", "-c", "tail -n 0 -F /data/logs/latest.log & tail_pid=$!; " ++
      "trap \"kill $tail_pid\" EXIT; cat > /tmp/minikura-console"]
  else [orDefault query.shell "/bin/sh"]

def execRequest (query : Query) (ns podName : String) : ExecRequest where
  apiPath := "/api/v1/namespaces/" ++ ns ++ "/pods/" ++ podName ++ "/exec"
  params := [("stdout", "true"), ("stderr", "true"), ("stdin", "true"), ("tty", "true")] ++
    (execCommand query).map ("command", ·) ++
    match query.container with
    | none | some "" => []
    | some container => [("container", container)]

def Connection.fail (x : Connection) (message : String) : Connection :=
  (x.send [.error (.str message)]).requestClose

/-- `open` from the answer to its lookup to its end. -/
def Connection.openTerminal (x : Connection) (user : Option User) (now : Time)
    (platform : Platform) : Connection :=
  if refused user now then x.fail "Admin access required"
  else match x.query.podName with
    | none | some "" => x.fail "Pod name is required"
    | some podName =>
      if !platform.initialized then x.fail "Kubernetes client not initialized"
      else if !platform.hasCluster then
        x.fail "Failed to connect: No current cluster configured"
      else match platform.connectError with
        | some message => x.fail ("Failed to connect: " ++ message)
        | none => x.setExec {
            isConsole := orDefault x.query.mode "shell" = "console"
            request := execRequest x.query platform.ns podName }

/-! ## Messages of the client -/

inductive TerminalMessage where
  | input (data : String)
  | resize (cols rows : Int)

section Messages

variable (parse : String → Option Json)

/-- `none` for what is not a text; what is read has to be a message of one of two types. -/
def parseTerminalMessage (message : Option String) : Option TerminalMessage := do
  let parsed ← parse (← message)
  let type ← (← parsed.get? "type").str?
  if type = "input" then
    return .input (← (← parsed.get? "data").str?)
  else if type = "resize" then
    return .resize (← (← parsed.get? "cols").num?) (← (← parsed.get? "rows").num?)
  else none

/-- The bytes for the exec socket, on the channel of the message. -/
def TerminalMessage.bytes : TerminalMessage → List UInt8
  | .input data => 0 :: textEncode data.toList
  | .resize cols rows => 4 :: textEncode ("\x7b\"Width\":" ++ toString cols ++ ",\"Height\":" ++
      toString rows ++ "\x7d").toList

/-- `message` -/
def Connection.message (x : Connection) (message : Option String) : Connection :=
  match parseTerminalMessage parse message, x.k8sWs with
  | some data, some s =>
    if s.readyState = .opened then x.setExec { s with received := s.received ++ [data.bytes] }
    else x
  | _, _ => x

end Messages

/-- `close` -/
def Connection.close (x : Connection) : Connection :=
  match x.k8sWs with
  | some s =>
    { x with
      closeHandled := true
      k8sWs := some (if s.readyState = .opened then s.close else s) }
  | none => { x with closeHandled := true }

/-! ## Steps -/

/-- `none` is a lookup or a request that has failed. -/
inductive Label where
  | session (found : Option (Option User)) (now : Time) (platform : Platform)
  | execOpen
  | logs (text : Option String)
  | execMessage (data : RawData)
  | execError (message : String)
  | execClosing
  | execClose (code : Nat) (reason : String)
  | clientMessage (message : Option String)
  | clientClose

def closeReply (code : Nat) (reason : String) : Reply :=
  .close (if reason = "" then "Connection closed (" ++ toString code ++ ")" else reason)

def logReplies (text : Option String) : List Reply :=
  (match text with
    | none | some "" => []
    | some text => (text.splitOn "\n").map fun line => .output (line ++ "\r\n")) ++
  [.ready "Minecraft console ready"]

section Events

variable (parse : String → Option Json)

/-- The events of the exec socket. A handshake that fails ends with both events at once; on a
connection that was open the package calls `close()` itself before it reports an error, and
when the other side closes. -/
def execEvent (x : Connection) (s : ExecSocket) : Label → Option Connection
  | .execOpen =>
    if s.readyState ≠ .connecting then none
    else if s.isConsole then
      some (x.setExec { s.setState .opened with fetchingLogs := true })
    else some ((x.setExec (s.setState .opened)).send [.ready "Shell ready"])
  | .logs text =>
    if !s.fetchingLogs then none
    else some ((x.setExec { s with fetchingLogs := false }).send (logReplies text))
  | .execMessage data =>
    if s.readyState = .opened ∨ s.readyState = .closing then
      some (x.send (handleMessage parse data))
    else none
  | .execError message =>
    let reply : Reply := .error (.str ("Connection error: " ++ message))
    match s.readyState with
    | .connecting =>
      some ((x.setExec (s.setState .closed)).send [reply, closeReply 1006 ""]).requestClose
    | .opened | .closing => some ((x.setExec s.close).send [reply])
    | .closed => none
  | .execClosing => if s.readyState = .opened then some (x.setExec s.close) else none
  | .execClose code reason =>
    if s.readyState = .closed then none
    else some ((x.setExec (s.setState .closed)).send [closeReply code reason]).requestClose
  | _ => none

def Connection.next (x : Connection) : Label → Option Connection
  | .session found now platform =>
    if !x.pending then none
    else match found with
      | none => some { x with pending := false }
      | some user => some
          ({ x with pending := false, session := some (user, now) }.openTerminal user now platform)
  | .clientMessage message => if x.closeHandled then none else some (x.message parse message)
  | .clientClose => if x.closeHandled then none else some x.close
  | l => x.k8sWs.bind (execEvent parse x · l)

end Events

/-! ## What the steps do to the exec socket -/

/-- Once the client's close has been handled and `open` is through, the exec socket is closed
or has been told to. -/
def Connection.NoOrphan (x : Connection) : Prop :=
  x.closeHandled = true → x.pending = false → ∀ s, x.k8sWs = some s →
    s.readyState = .closed ∨ s.closeCalled = true

/-- The exec socket was created for an administrator who was neither banned nor suspended. -/
def Connection.Authorized (x : Connection) : Prop :=
  ∀ s, x.k8sWs = some s → ∃ user now, x.session = some (some user, now) ∧
    user.role = "admin" ∧ user.banned = false ∧ isUserSuspended user now = false

/-- `open` creates an exec socket after this lookup. -/
def opens (query : Query) (user : Option User) (now : Time) (platform : Platform) : Bool :=
  !refused user now && query.podName.any (· ≠ "") && platform.initialized &&
    platform.hasCluster && platform.connectError.isNone

/-- No exec socket is created when the client's close has been handled, and that is not handled
while the socket is connecting. -/
def Attended (x : Connection) : Label → Prop
  | .session (some user) now platform =>
    opens x.query user now platform = true → x.closeHandled = false
  | .clientClose => ∀ s, x.k8sWs = some s → s.readyState ≠ .connecting
  | _ => True

/-- Without `open` and `close`, `close()` is called only by the package. -/
inductive ExecSocket.Moves (s s' : ExecSocket) : Prop where
  | stays : s'.readyState = s.readyState → s'.closeCalled = s.closeCalled → Moves s s'
  | opens : s.readyState = .connecting → s'.readyState = .opened →
      s'.closeCalled = s.closeCalled → Moves s s'
  | closes : s'.readyState = .closing → s'.closeCalled = true → Moves s s'
  | ends : s'.readyState = .closed → Moves s s'

/-- What the steps of the exec socket and the client's messages leave as it is. -/
structure Connection.SameClient (x y : Connection) : Prop where
  pending : y.pending = x.pending
  closeHandled : y.closeHandled = x.closeHandled
  session : y.session = x.session

/-- The invariant of the exec socket. -/
structure Connection.Sound (x : Connection) : Prop where
  waiting : x.pending = true → x.k8sWs = none
  connecting : ∀ s, x.k8sWs = some s → s.readyState = .connecting → s.closeCalled = false
  closing : ∀ s, x.k8sWs = some s → s.readyState = .closing → s.closeCalled = true

section Steps

variable {parse : String → Option Json} {x y : Connection} {s : ExecSocket} {l : Label}

theorem refused_eq_false {user : Option User} {now : Time} (h : refused user now = false) :
    ∃ u, user = some u ∧ u.role = "admin" ∧ u.banned = false ∧ isUserSuspended u now = false := by
  cases user with
  | none => simp [refused] at h
  | some u =>
    obtain ⟨hrole, hbanned, hsuspended⟩ :
        u.role = "admin" ∧ u.banned = false ∧ isUserSuspended u now = false := by
      simpa [refused] using h
    exact ⟨u, rfl, hrole, hbanned, hsuspended⟩

/-- `open` creates one socket, which is connecting, or none. -/
theorem openTerminal_cases (user : Option User) (now : Time) (platform : Platform) :
    (opens x.query user now platform = true ∧ ∃ s : ExecSocket, s.readyState = .connecting ∧
      s.closeCalled = false ∧ x.openTerminal user now platform = x.setExec s) ∨
    (opens x.query user now platform = false ∧
      ∃ message, x.openTerminal user now platform = x.fail message) := by
  unfold Connection.openTerminal
  cases hrefused : refused user now with
  | true => exact .inr ⟨by simp [opens, hrefused], _, rfl⟩
  | false =>
    rw [if_neg Bool.false_ne_true]
    split
    · next h => exact .inr ⟨by simp [opens, h], _, rfl⟩
    · next h => exact .inr ⟨by simp [opens, h], _, rfl⟩
    · next podName hne h =>
      cases hinit : platform.initialized with
      | false => exact .inr ⟨by simp [opens, hinit], _, rfl⟩
      | true =>
        cases hcluster : platform.hasCluster with
        | false => exact .inr ⟨by simp [opens, hcluster], _, rfl⟩
        | true =>
          cases herror : platform.connectError with
          | some message => exact .inr ⟨by simp [opens, herror], _, rfl⟩
          | none =>
            have hpod : podName ≠ "" := fun heq => hne heq
            refine .inl ⟨by simp [opens, *], _, rfl, rfl, rfl⟩

theorem execEvent_moves (hs : x.k8sWs = some s) (h : execEvent parse x s l = some y) :
    x.SameClient y ∧ ∃ s', y.k8sWs = some s' ∧ s.Moves s' := by
  cases l <;> simp only [execEvent] at h
  case execOpen =>
    split_ifs at h with hstate hconsole
    · obtain rfl := Option.some.inj h
      push Not at hstate
      exact ⟨⟨rfl, rfl, rfl⟩, _, rfl, .opens hstate rfl rfl⟩
    · obtain rfl := Option.some.inj h
      push Not at hstate
      exact ⟨⟨rfl, rfl, rfl⟩, _, rfl, .opens hstate rfl rfl⟩
  case logs text =>
    split_ifs at h
    obtain rfl := Option.some.inj h
    exact ⟨⟨rfl, rfl, rfl⟩, _, rfl, .stays rfl rfl⟩
  case execMessage data =>
    split_ifs at h
    obtain rfl := Option.some.inj h
    exact ⟨⟨rfl, rfl, rfl⟩, s, hs, .stays rfl rfl⟩
  case execError message =>
    split at h <;> cases h
    · exact ⟨⟨rfl, rfl, rfl⟩, _, rfl, .ends rfl⟩
    · exact ⟨⟨rfl, rfl, rfl⟩, _, rfl, .closes rfl rfl⟩
    · exact ⟨⟨rfl, rfl, rfl⟩, _, rfl, .closes rfl rfl⟩
  case execClosing =>
    split_ifs at h
    obtain rfl := Option.some.inj h
    exact ⟨⟨rfl, rfl, rfl⟩, _, rfl, .closes rfl rfl⟩
  case execClose code reason =>
    split_ifs at h
    obtain rfl := Option.some.inj h
    exact ⟨⟨rfl, rfl, rfl⟩, _, rfl, .ends rfl⟩
  all_goals cases h

theorem message_moves (parse : String → Option Json) (x : Connection)
    (message : Option String) :
    x.SameClient (x.message parse message) ∧
    ((x.k8sWs = none ∧ (x.message parse message).k8sWs = none) ∨
      ∃ s s', x.k8sWs = some s ∧ (x.message parse message).k8sWs = some s' ∧ s.Moves s') := by
  have hsame : (x.k8sWs = none ∧ x.k8sWs = none) ∨
      ∃ s s', x.k8sWs = some s ∧ x.k8sWs = some s' ∧ s.Moves s' := by
    cases hs : x.k8sWs with
    | none => exact .inl ⟨rfl, rfl⟩
    | some s => exact .inr ⟨s, s, rfl, rfl, .stays rfl rfl⟩
  unfold Connection.message
  split
  · next data s _ hs =>
    split_ifs
    · exact ⟨⟨rfl, rfl, rfl⟩, .inr ⟨s, _, hs, rfl, .stays rfl rfl⟩⟩
    · exact ⟨⟨rfl, rfl, rfl⟩, hsame⟩
  · exact ⟨⟨rfl, rfl, rfl⟩, hsame⟩

theorem noOrphan_setExec {s s' : ExecSocket} (hx : x.NoOrphan) (hs : x.k8sWs = some s)
    (hmoves : s.Moves s') (hclient : x.SameClient y) (hy : y.k8sWs = some s') : y.NoOrphan := by
  intro hclosed hpending t ht
  obtain rfl : s' = t := Option.some.inj (hy.symm.trans ht)
  rcases hx (hclient.closeHandled ▸ hclosed) (hclient.pending ▸ hpending) s hs with hend | hcall
  · cases hmoves with
    | stays hstate _ => exact .inl (hstate.trans hend)
    | opens hstate _ _ => exact absurd (hstate.symm.trans hend) (by decide)
    | closes _ hclose => exact .inr hclose
    | ends hstate => exact .inl hstate
  · cases hmoves with
    | stays _ hclose => exact .inr (hclose.trans hcall)
    | opens _ _ hclose => exact .inr (hclose.trans hcall)
    | closes _ hclose => exact .inr hclose
    | ends hstate => exact .inl hstate

theorem sound_setExec {s s' : ExecSocket} (hx : x.Sound) (hs : x.k8sWs = some s)
    (hmoves : s.Moves s') (hclient : x.SameClient y) (hy : y.k8sWs = some s') : y.Sound := by
  have hnone : y.pending = false := by
    cases hp : y.pending with
    | false => rfl
    | true => exact absurd (hx.waiting (hclient.pending ▸ hp)) (by simp [hs])
  refine ⟨fun hp => absurd hp (by simp [hnone]), fun t ht hstate => ?_, fun t ht hstate => ?_⟩
  all_goals
    obtain rfl : s' = t := Option.some.inj (hy.symm.trans ht)
  · cases hmoves with
    | stays hsame hclose => exact hclose.trans (hx.connecting s hs (hsame ▸ hstate))
    | opens _ hopened _ => exact absurd (hopened.symm.trans hstate) (by decide)
    | closes hclosing _ => exact absurd (hclosing.symm.trans hstate) (by decide)
    | ends hend => exact absurd (hend.symm.trans hstate) (by decide)
  · cases hmoves with
    | stays hsame hclose => exact hclose.trans (hx.closing s hs (hsame ▸ hstate))
    | opens _ hopened _ => exact absurd (hopened.symm.trans hstate) (by decide)
    | closes _ hclose => exact hclose
    | ends hend => exact absurd (hend.symm.trans hstate) (by decide)

/-- A step is the end of the lookup, the client's close, or one of those that leave both to
others. -/
theorem next_cases (h : x.next parse l = some y) :
    (∃ found now platform, l = .session found now platform ∧ x.pending = true) ∨
    (l = .clientClose ∧ y = x.close) ∨
    (Attended x l ∧ x.SameClient y ∧ ((x.k8sWs = none ∧ y.k8sWs = none) ∨
      ∃ s s', x.k8sWs = some s ∧ y.k8sWs = some s' ∧ s.Moves s')) := by
  cases l with
  | session found now platform =>
    refine .inl ⟨found, now, platform, rfl, ?_⟩
    cases hp : x.pending with
    | true => rfl
    | false => simp [Connection.next, hp] at h
  | clientClose =>
    simp only [Connection.next] at h
    split_ifs at h
    exact .inr (.inl ⟨rfl, (Option.some.inj h).symm⟩)
  | clientMessage message =>
    simp only [Connection.next] at h
    split_ifs at h
    obtain rfl := Option.some.inj h
    obtain ⟨hclient, hexec⟩ := message_moves parse x message
    exact .inr (.inr ⟨trivial, hclient, hexec⟩)
  | _ =>
    obtain ⟨s, hs, hevent⟩ := Option.bind_eq_some_iff.mp h
    obtain ⟨hclient, s', hs', hmoves⟩ := execEvent_moves hs hevent
    exact .inr (.inr ⟨trivial, hclient, .inr ⟨s, s', hs, hs', hmoves⟩⟩)

/-- After the lookup there is a socket that is connecting, or none. -/
theorem next_session {found : Option (Option User)} {now : Time} {platform : Platform}
    (hx : x.Sound) (hp : x.pending = true)
    (h : x.next parse (.session found now platform) = some y) :
    y.pending = false ∧ y.closeHandled = x.closeHandled ∧
    ((y.k8sWs = none ∧ Attended x (.session found now platform)) ∨
      ∃ user s, found = some user ∧ opens x.query user now platform = true ∧
        y.k8sWs = some s ∧ s.readyState = .connecting ∧ s.closeCalled = false ∧
        y.session = some (user, now)) := by
  have hnone := hx.waiting hp
  simp only [Connection.next, hp] at h
  cases found with
  | none =>
    obtain rfl := Option.some.inj h
    exact ⟨rfl, rfl, .inl ⟨hnone, trivial⟩⟩
  | some user =>
    obtain rfl := Option.some.inj h
    rcases openTerminal_cases (x := { x with pending := false, session := some (user, now) })
      user now platform with ⟨hopens, s, hstate, hclose, heq⟩ | ⟨hopens, message, heq⟩
    · rw [heq]
      exact ⟨rfl, rfl, .inr ⟨user, s, rfl, hopens, rfl, hstate, hclose, rfl⟩⟩
    · rw [heq]
      refine ⟨rfl, rfl, .inl ⟨hnone, fun h => absurd (h.symm.trans hopens) (by simp)⟩⟩

theorem close_k8sWs (x : Connection) : x.close.k8sWs =
    x.k8sWs.map fun s => if s.readyState = .opened then s.close else s := by
  unfold Connection.close
  cases x.k8sWs <;> rfl

theorem close_frame (x : Connection) : x.close.pending = x.pending ∧
    x.close.closeHandled = true ∧ x.close.session = x.session := by
  unfold Connection.close
  cases x.k8sWs <;> exact ⟨rfl, rfl, rfl⟩

theorem next_sound (hx : x.Sound) (h : x.next parse l = some y) : y.Sound := by
  rcases next_cases h with ⟨found, now, platform, rfl, hp⟩ | ⟨rfl, rfl⟩ | ⟨-, hclient, hexec⟩
  · obtain ⟨hpending, -, ⟨hnone, -⟩ | ⟨user, s, -, -, hs, hstate, hclose, -⟩⟩ :=
      next_session hx hp h
    · exact ⟨fun _ => hnone, by simp [hnone], by simp [hnone]⟩
    · refine ⟨by simp [hpending], fun t ht _ => ?_, fun t ht hclosing => ?_⟩
      all_goals obtain rfl : s = t := Option.some.inj (hs.symm.trans ht)
      · exact hclose
      · exact absurd (hstate.symm.trans hclosing) (by decide)
  · obtain ⟨hpending, -, -⟩ := close_frame x
    refine ⟨fun hp => ?_, fun t ht hstate => ?_, fun t ht hstate => ?_⟩
    · rw [close_k8sWs, hx.waiting (hpending ▸ hp)]
      rfl
    all_goals
      rw [close_k8sWs] at ht
      obtain ⟨s, hs, rfl⟩ := Option.map_eq_some_iff.mp ht
      split_ifs at hstate ⊢ with hopened
    · exact absurd hstate (by simp [ExecSocket.close])
    · exact hx.connecting s hs hstate
    · rfl
    · exact hx.closing s hs hstate
  · rcases hexec with ⟨-, hnone⟩ | ⟨s, s', hs, hs', hmoves⟩
    · exact ⟨fun _ => hnone, by simp [hnone], by simp [hnone]⟩
    · exact sound_setExec hx hs hmoves hclient hs'

/-- An exec socket is left behind just by a lookup that comes too late, or by a close that
comes too early. -/
theorem next_noOrphan_iff (hx : x.Sound) (horphan : x.NoOrphan)
    (h : x.next parse l = some y) : y.NoOrphan ↔ Attended x l := by
  rcases next_cases h with ⟨found, now, platform, rfl, hp⟩ | ⟨rfl, rfl⟩ | ⟨hatt, hclient, hexec⟩
  · obtain ⟨hpending, hclosed, ⟨hnone, hatt⟩ | ⟨user, s, rfl, hopens, hs, hstate, hclose, -⟩⟩ :=
      next_session hx hp h
    · exact ⟨fun _ => hatt, fun _ _ _ s hs => by simp [hnone] at hs⟩
    · simp only [Attended, hopens, forall_const, Connection.NoOrphan, hpending, hclosed, hs,
        Option.some.injEq, forall_eq', hstate, hclose]
      simp
  · obtain ⟨hpending, hclosed, -⟩ := close_frame x
    simp only [Connection.NoOrphan, hpending, hclosed, close_k8sWs, forall_const, Attended]
    cases hs : x.k8sWs with
    | none => simp
    | some s =>
      have hnone : x.pending = false := by
        cases hp : x.pending with
        | false => rfl
        | true => exact absurd (hx.waiting hp) (by simp [hs])
      simp only [hnone, forall_const, Option.map_some, Option.some.injEq, forall_eq']
      cases hstate : s.readyState with
      | connecting => simp [hstate, hx.connecting s hs hstate]
      | opened => simp [ExecSocket.close]
      | closing => simp [hx.closing s hs hstate]
      | closed => simp [hstate]
  · refine ⟨fun _ => hatt, fun _ => ?_⟩
    rcases hexec with ⟨-, hnone⟩ | ⟨s, s', hs, hs', hmoves⟩
    · exact fun _ _ s hs => by simp [hnone] at hs
    · exact noOrphan_setExec horphan hs hmoves hclient hs'

theorem next_authorized (hx : x.Sound) (hauth : x.Authorized) (h : x.next parse l = some y) :
    y.Authorized := by
  rcases next_cases h with ⟨found, now, platform, rfl, hp⟩ | ⟨rfl, rfl⟩ | ⟨-, hclient, hexec⟩
  · obtain ⟨-, -, ⟨hnone, -⟩ | ⟨user, s, rfl, hopens, hs, -, -, hsession⟩⟩ :=
      next_session hx hp h
    · exact fun s hs => by simp [hnone] at hs
    · have hrefused : refused user now = false := by
        simp only [opens, Bool.and_eq_true, Bool.not_eq_true'] at hopens
        exact hopens.1.1.1.1
      obtain ⟨u, rfl, huser⟩ := refused_eq_false hrefused
      exact fun _ _ => ⟨u, now, hsession, huser⟩
  · intro t ht
    rw [close_k8sWs] at ht
    obtain ⟨s, hs, -⟩ := Option.map_eq_some_iff.mp ht
    rw [(close_frame x).2.2]
    exact hauth s hs
  · intro t ht
    rcases hexec with ⟨-, hnone⟩ | ⟨s, s', hs, hs', hmoves⟩
    · simp [hnone] at ht
    · rw [hclient.session]
      exact hauth s hs

end Steps

/-! ## Runs -/

def Connection.start (query : Query) : Connection := { query }

theorem start_sound (query : Query) : (Connection.start query).Sound :=
  ⟨fun _ => rfl, nofun, nofun⟩

/-- No exec socket is left behind unless a lookup comes too late or a close too early, and none
is ever created for anyone but an administrator who may act. -/
theorem terminal_sessions (parse : String → Option Json) (query : Query) :
    (∀ x, Runs (Connection.next parse) Attended (.start query) x → x.NoOrphan) ∧
    ∀ x, Runs (Connection.next parse) Anything (.start query) x → x.Authorized := by
  constructor
  · intro x h
    have hinv : x.Sound ∧ x.NoOrphan := h.invariant
      (I := fun x => x.Sound ∧ x.NoOrphan)
      (fun _ _ _ hx hl hy => ⟨next_sound hx.1 hy, (next_noOrphan_iff hx.1 hx.2 hy).mpr hl⟩)
      ⟨start_sound query, nofun⟩
    exact hinv.2
  · intro x h
    have hinv : x.Sound ∧ x.Authorized := h.invariant
      (I := fun x => x.Sound ∧ x.Authorized)
      (fun _ _ _ hx _ hy => ⟨next_sound hx.1 hy, next_authorized hx.1 hx.2 hy⟩)
      ⟨start_sound query, nofun⟩
    exact hinv.2

instance (x : Connection) (l : Label) : Decidable (Attended x l) := by
  unfold Attended
  split <;> infer_instance

def administrator : User := ⟨"u", "User", "admin", false, none, false⟩

def cluster : Platform := ⟨true, "minikura", true, none⟩

def shellQuery : Query := { podName := some "minikura-a-0" }

def usualSession : List Label := [
  .session (some (some administrator)) 0 cluster, .execOpen, .execMessage (.bytes [1, 0x24]),
  .clientClose]

/-- The client leaves while the exec socket is connecting. -/
def hastySession : List Label := [
  .session (some (some administrator)) 0 cluster, .clientClose, .execOpen]

/-- The client leaves before its session has been found. -/
def lateSession : List Label := [
  .clientClose, .session (some (some administrator)) 0 cluster, .execOpen]

theorem terminal_sessions_usual : ∃ x : Connection, x.closeHandled = true ∧ x.pending = false ∧
    x.k8sWs.isSome ∧ x.NoOrphan ∧ x.Authorized := by
  obtain ⟨x, hrun, hclosed, hpending, hexec⟩ : ∃ x : Connection,
      runChecked (fun x l => decide (Attended x l)) (Connection.next fun _ => none)
        (.start shellQuery) usualSession = some x ∧
      x.closeHandled = true ∧ x.pending = false ∧ x.k8sWs.isSome :=
    ⟨_, rfl, rfl, rfl, rfl⟩
  have run := runs_of_checked (fun _ _ h => of_decide_eq_true h) hrun
  exact ⟨x, hclosed, hpending, hexec, (terminal_sessions (fun _ => none) shellQuery).1 x run,
    (terminal_sessions (fun _ => none) shellQuery).2 x run.anything⟩

/-- The exec socket opens with nobody attached. -/
theorem exec_left_open : ¬ ∀ x,
    Runs (Connection.next fun _ => none) Anything (.start shellQuery) x →
      x.NoOrphan ∧ x.Authorized := by
  intro h
  obtain ⟨x, hrun, hclosed, hpending, s, hs, hopened, hcall⟩ : ∃ x : Connection,
      runLabels (Connection.next fun _ => none) (.start shellQuery) hastySession = some x ∧
      x.closeHandled = true ∧ x.pending = false ∧ ∃ s, x.k8sWs = some s ∧
        s.readyState = .opened ∧ s.closeCalled = false := ⟨_, rfl, rfl, rfl, _, rfl, rfl, rfl⟩
  have := (h x (runs_of_labels (fun _ _ _ => trivial) hrun)).1 hclosed hpending s hs
  simp [hopened, hcall] at this

theorem exec_created_after_close : ∃ x : Connection,
    runLabels (Connection.next fun _ => none) (.start shellQuery) lateSession = some x ∧
    ¬ x.NoOrphan := by
  refine ⟨_, rfl, fun h => ?_⟩
  rcases h rfl rfl _ rfl with hclosed | hcall
  · exact absurd hclosed (by decide)
  · exact absurd hcall (by decide)

end Minikura.Backend.Terminal
