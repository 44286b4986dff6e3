import Minikura.Backend.TerminalSession
import Minikura.Data.JsonText

/-!
# Terminal input

The page writes what is typed and the sizes of its terminal as JSON texts. The backend reads them
and writes a frame for each to the exec socket, if that is open at the moment; nothing is kept
for later.

## Main definitions

* `TerminalMessage.text` — what the page sends.
* `frameMessage` — how a frame is read in the cluster.
* `inTime` — the messages between the opening of the exec socket and its end.

## Main result

* `terminal_input` — in every run the container is given the messages in time, and no others.
-/

namespace Minikura.Backend.Terminal

open Utf8Decoder Concurrency

/-! ## The two ends -/

/-- `JSON.stringify(message)` in the handlers of the page. -/
def TerminalMessage.text : TerminalMessage → String
  | .input data => Json.stringify (.obj [("type", .str "input"), ("data", .str data)])
  | .resize cols rows =>
    Json.stringify (.obj [("type", .str "resize"), ("cols", .num cols), ("rows", .num rows)])

/-- The text of a frame's payload. -/
def payloadText (payload : List UInt8) : String := String.ofList (decodeFrom none payload)

/-- Channel 0 is the standard input and channel 4 the size of the terminal. -/
def frameMessage : List UInt8 → Option TerminalMessage
  | [] => none
  | channel :: payload =>
    if channel = 0 then some (.input (payloadText payload))
    else if channel = 4 then do
      let size ← Json.parse (payloadText payload)
      return .resize (← (← size.get? "Width").num?) (← (← size.get? "Height").num?)
    else none

theorem payloadText_textEncode (s : String) : payloadText (textEncode s.toList) = s := by
  rw [payloadText, decodeFrom_textEncode, String.ofList_toList]

theorem parseTerminalMessage_text (m : TerminalMessage) :
    parseTerminalMessage Json.parse (some m.text) = some m := by
  cases m with
  | input data =>
    have hread : Json.parse (TerminalMessage.input data).text =
        some (.obj [("type", .str "input"), ("data", .str data)]) :=
      Json.parse_write ⟨by simp, trivial, trivial, trivial⟩
    simp [parseTerminalMessage, hread, Json.get?, List.lookup_cons]
  | resize cols rows =>
    have hread : Json.parse (TerminalMessage.resize cols rows).text =
        some (.obj [("type", .str "resize"), ("cols", .num cols), ("rows", .num rows)]) :=
      Json.parse_write ⟨by simp, trivial, trivial, trivial, trivial⟩
    simp [parseTerminalMessage, hread, Json.get?, List.lookup_cons]

/-- The text of a size is that of an object with two fields. -/
theorem stringify_size (cols rows : ℤ) :
    "\x7b\"Width\":" ++ toString cols ++ ",\"Height\":" ++ toString rows ++ "\x7d" =
      Json.stringify (.obj [("Width", .num cols), ("Height", .num rows)]) := by
  rw [← String.toList_inj, Json.stringify, String.toList_ofList]
  simp only [String.toList_append, Json.write, Json.writeFields]
  have hwidth : "\x7b\"Width\":".toList = '\x7b' :: (Json.quote "Width" ++ [':']) := by decide
  have hheight : ",\"Height\":".toList = ',' :: (Json.quote "Height" ++ [':']) := by decide
  have hend : "\x7d".toList = ['\x7d'] := by decide
  rw [hwidth, hheight, hend]
  simp

theorem frameMessage_bytes (m : TerminalMessage) : frameMessage m.bytes = some m := by
  cases m with
  | input data => simp [TerminalMessage.bytes, frameMessage, payloadText_textEncode]
  | resize cols rows =>
    have hread : Json.parse (Json.stringify (.obj [("Width", .num cols), ("Height", .num rows)])) =
        some (.obj [("Width", .num cols), ("Height", .num rows)]) :=
      Json.parse_write ⟨by simp, trivial, trivial, trivial⟩
    have hchannel : (4 : UInt8) ≠ 0 := by decide
    rw [TerminalMessage.bytes, stringify_size, frameMessage, payloadText_textEncode, hread,
      if_neg hchannel, if_pos rfl]
    simp [Json.get?, List.lookup_cons]

/-! ## Events -/

def Label.isClientMessage : Label → Bool
  | .clientMessage _ => true
  | _ => false

/-- A message of the page, or a step of anyone else. -/
inductive Event where
  | page (m : TerminalMessage)
  | elsewhere (l : Label) (h : l.isClientMessage = false)

def Event.label : Event → Label
  | .page m => .clientMessage (some m.text)
  | .elsewhere l _ => l

def Event.message : Event → Option TerminalMessage
  | .page m => some m
  | .elsewhere _ _ => none

def Label.isOpening : Label → Bool
  | .execOpen => true
  | _ => false

/-- From here on the exec socket takes nothing more. -/
def Label.isEnd : Label → Bool
  | .execError _ | .execClosing | .execClose _ _ | .clientClose => true
  | _ => false

/-- The messages between the opening of the exec socket and its end. -/
def inTime (events : List Event) : List TerminalMessage :=
  (((events.dropWhile (!·.label.isOpening)).drop 1).takeWhile (!·.label.isEnd)).filterMap
    Event.message

/-! ## What a step does to the frames -/

/-- The frames the exec socket has been given. -/
def Connection.frames (x : Connection) : List (List UInt8) :=
  (x.k8sWs.map (·.received)).getD []

/-- No exec socket has been open yet. -/
def Connection.Early (x : Connection) : Prop :=
  x.frames = [] ∧ ∀ s, x.k8sWs = some s → s.readyState ≠ .opened

def Connection.Listens (x : Connection) : Prop :=
  ∃ s, x.k8sWs = some s ∧ s.readyState = .opened

def Connection.Over (x : Connection) : Prop :=
  ∃ s, x.k8sWs = some s ∧ (s.readyState = .closing ∨ s.readyState = .closed)

section Steps

variable {parse : String → Option Json} {x y : Connection} {s : ExecSocket} {l : Label}
  {m : TerminalMessage}

/-- A connection that has an exec socket is not waiting for its session. -/
theorem next_session_none (hx : x.Sound) (hs : x.k8sWs = some s)
    {found : Option (Option User)} {now : Time} {platform : Platform} :
    x.next parse (.session found now platform) = none := by
  have hpending : x.pending = false := by
    cases hp : x.pending with
    | false => rfl
    | true => exact absurd (hx.waiting hp) (by simp [hs])
  simp [Connection.next, hpending]

theorem next_page (h : x.next Json.parse (.clientMessage (some m.text)) = some y) :
    y = match x.k8sWs with
      | some s =>
        if s.readyState = .opened then x.setExec { s with received := s.received ++ [m.bytes] }
        else x
      | none => x := by
  simp only [Connection.next] at h
  split_ifs at h
  rw [← Option.some.inj h, Connection.message, parseTerminalMessage_text]
  cases x.k8sWs <;> rfl

/-- An event of the exec socket adds no frame, and leaves it open just if it is not its end. -/
theorem execEvent_frames (hs : x.k8sWs = some s) (h : execEvent parse x s l = some y) :
    ∃ s', y.k8sWs = some s' ∧ s'.received = s.received ∧
      (s.readyState = .opened → l.isEnd = false → s'.readyState = .opened) ∧
      (l.isEnd = true → s'.readyState = .closing ∨ s'.readyState = .closed) ∧
      (l.isOpening = true → s.readyState = .connecting ∧ s'.readyState = .opened) ∧
      (l.isOpening = false → l.isEnd = false → s'.readyState = s.readyState) := by
  cases l <;> simp only [execEvent] at h
  case execOpen =>
    split_ifs at h with hstate hconsole
    all_goals
      obtain rfl := Option.some.inj h
      push Not at hstate
      exact ⟨_, rfl, rfl, by simp [Label.isEnd, Label.isOpening, ExecSocket.setState, hstate]⟩
  case logs text =>
    split_ifs at h
    obtain rfl := Option.some.inj h
    exact ⟨_, rfl, rfl, by simp [Label.isEnd, Label.isOpening]⟩
  case execMessage data =>
    split_ifs at h
    obtain rfl := Option.some.inj h
    exact ⟨s, hs, rfl, by simp [Label.isEnd, Label.isOpening]⟩
  case execError message =>
    split at h <;> cases h
    · exact ⟨_, rfl, rfl, by simp [Label.isEnd, Label.isOpening, ExecSocket.setState]⟩
    · exact ⟨_, rfl, rfl, by simp [Label.isEnd, Label.isOpening, ExecSocket.close]⟩
    · exact ⟨_, rfl, rfl, by simp [Label.isEnd, Label.isOpening, ExecSocket.close]⟩
  case execClosing =>
    split_ifs at h
    obtain rfl := Option.some.inj h
    exact ⟨_, rfl, rfl, by simp [Label.isEnd, Label.isOpening, ExecSocket.close]⟩
  case execClose code reason =>
    split_ifs at h
    obtain rfl := Option.some.inj h
    exact ⟨_, rfl, rfl, by simp [Label.isEnd, Label.isOpening, ExecSocket.setState]⟩
  all_goals cases h

theorem openTerminal_early (hnone : x.k8sWs = none) (user : Option User) (now : Time)
    (platform : Platform) : (x.openTerminal user now platform).Early := by
  have hfail : ∀ message, (x.fail message).Early := fun message =>
    ⟨by simp [Connection.fail, Connection.requestClose, Connection.send, Connection.frames, hnone],
      fun s hs => by simp [Connection.fail, Connection.requestClose, Connection.send, hnone] at hs⟩
  unfold Connection.openTerminal
  repeat' split
  all_goals first
    | exact hfail _
    | exact ⟨rfl, fun s hs => by obtain rfl := Option.some.inj hs; simp⟩

theorem next_session_early (hx : x.Sound) {found : Option (Option User)} {now : Time}
    {platform : Platform} (h : x.next parse (.session found now platform) = some y) :
    y.Early := by
  have hpending : x.pending = true := by
    cases hp : x.pending with
    | true => rfl
    | false => simp [Connection.next, hp] at h
  have hnone := hx.waiting hpending
  simp only [Connection.next, hpending] at h
  cases found with
  | none =>
    obtain rfl := Option.some.inj h
    exact ⟨by simp [Connection.frames, hnone], fun s hs => by simp [hnone] at hs⟩
  | some user =>
    obtain rfl := Option.some.inj h
    exact openTerminal_early (x := { x with pending := false, session := some (user, now) })
      hnone user now platform

theorem next_close (h : x.next parse .clientClose = some y) : y.frames = x.frames ∧
    y.k8sWs = x.k8sWs.map fun s => if s.readyState = .opened then s.close else s := by
  simp only [Connection.next] at h
  split_ifs at h
  obtain rfl := Option.some.inj h
  refine ⟨?_, close_k8sWs x⟩
  rw [Connection.frames, close_k8sWs, Connection.frames]
  cases x.k8sWs with
  | none => rfl
  | some s =>
    simp only [Option.map_some, Option.getD_some]
    split_ifs <;> rfl

end Steps

/-! ## What an event does to the frames -/

section Events

variable {x y : Connection} {e : Event} {events : List Event}

/-- Before the exec socket is open nothing arrives. -/
theorem next_early (hx : x.Sound) (hearly : x.Early) (h : x.next Json.parse e.label = some y) :
    if e.label.isOpening then y.Listens ∧ y.frames = [] else y.Early := by
  cases e with
  | page m =>
    have hy := next_page h
    cases hs : x.k8sWs with
    | none =>
      simp only [hs] at hy
      exact hy ▸ hearly
    | some s =>
      simp only [hs, if_neg (hearly.2 s hs)] at hy
      exact hy ▸ hearly
  | elsewhere l hl =>
    cases l with
    | clientMessage => simp [Label.isClientMessage] at hl
    | session found now platform => exact next_session_early hx h
    | clientClose =>
      obtain ⟨hframes, hclose⟩ := next_close h
      refine ⟨hframes.trans hearly.1, fun s hs => ?_⟩
      rw [hclose] at hs
      obtain ⟨t, ht, rfl⟩ := Option.map_eq_some_iff.mp hs
      rw [if_neg (hearly.2 t ht)]
      exact hearly.2 t ht
    | _ =>
      obtain ⟨s, hs, hevent⟩ := Option.bind_eq_some_iff.mp h
      obtain ⟨s', hs', hreceived, -, hend, hopening, hother⟩ := execEvent_frames hs hevent
      have hframes : y.frames = [] := by
        have := hearly.1
        simpa [Connection.frames, hs, hs', hreceived] using this
      first
        | exact ⟨⟨s', hs', (hopening rfl).2⟩, hframes⟩
        | refine ⟨hframes, fun t ht => ?_⟩
          obtain rfl := Option.some.inj (hs'.symm.trans ht)
          first
            | rcases hend rfl with hstate | hstate <;> simp [hstate]
            | rw [hother rfl rfl]
              exact hearly.2 s hs

/-- While the exec socket is open every message is a frame. -/
theorem next_listens (hx : x.Sound) (hlistens : x.Listens)
    (h : x.next Json.parse e.label = some y) :
    if e.label.isEnd then y.Over ∧ y.frames = x.frames
    else y.Listens ∧ y.frames = x.frames ++ (e.message.map TerminalMessage.bytes).toList := by
  obtain ⟨s, hs, hstate⟩ := hlistens
  cases e with
  | page m =>
    have hy := next_page h
    simp only [hs, if_pos hstate] at hy
    subst hy
    exact ⟨⟨_, rfl, hstate⟩, by simp [Connection.frames, Connection.setExec, hs, Event.message]⟩
  | elsewhere l hl =>
    cases l with
    | clientMessage => simp [Label.isClientMessage] at hl
    | session found now platform =>
      rw [Event.label, next_session_none hx hs] at h
      cases h
    | clientClose =>
      obtain ⟨hframes, hclose⟩ := next_close h
      rw [hs, Option.map_some, if_pos hstate] at hclose
      exact ⟨⟨s.close, hclose, .inl rfl⟩, hframes⟩
    | _ =>
      obtain ⟨t, ht, hevent⟩ := Option.bind_eq_some_iff.mp h
      obtain rfl := Option.some.inj (hs.symm.trans ht)
      obtain ⟨s', hs', hreceived, hstays, hend, -, -⟩ := execEvent_frames hs hevent
      have hframes : y.frames = x.frames := by simp [Connection.frames, hs, hs', hreceived]
      first
        | exact ⟨⟨s', hs', hend rfl⟩, hframes⟩
        | exact ⟨⟨s', hs', hstays hstate rfl⟩, by simp [hframes, Event.message]⟩

/-- Afterwards nothing arrives any more. -/
theorem next_over (hx : x.Sound) (hover : x.Over) (h : x.next Json.parse e.label = some y) :
    y.Over ∧ y.frames = x.frames := by
  obtain ⟨s, hs, hstate⟩ := hover
  have hclosed : s.readyState ≠ .opened := by rcases hstate with h | h <;> simp [h]
  cases e with
  | page m =>
    have hy := next_page h
    simp only [hs, if_neg hclosed] at hy
    subst hy
    exact ⟨⟨s, hs, hstate⟩, rfl⟩
  | elsewhere l hl =>
    cases l with
    | clientMessage => simp [Label.isClientMessage] at hl
    | session found now platform =>
      rw [Event.label, next_session_none hx hs] at h
      cases h
    | clientClose =>
      obtain ⟨hframes, hclose⟩ := next_close h
      rw [hs, Option.map_some, if_neg hclosed] at hclose
      exact ⟨⟨s, hclose, hstate⟩, hframes⟩
    | _ =>
      obtain ⟨t, ht, hevent⟩ := Option.bind_eq_some_iff.mp h
      obtain rfl := Option.some.inj (hs.symm.trans ht)
      obtain ⟨s', hs', hreceived, -, hend, hopening, hother⟩ := execEvent_frames hs hevent
      have hframes : y.frames = x.frames := by simp [Connection.frames, hs, hs', hreceived]
      first
        | exact ⟨⟨s', hs', hend rfl⟩, hframes⟩
        | exact ⟨⟨s', hs', by rwa [hother rfl rfl]⟩, hframes⟩
        | rcases hstate with h | h <;> simp [(hopening rfl).1] at h

/-! ## Runs -/

theorem runLabels_cons (h : runLabels (Connection.next Json.parse) x
    ((e :: events).map Event.label) = some y) : ∃ z, x.next Json.parse e.label = some z ∧
      runLabels (Connection.next Json.parse) z (events.map Event.label) = some y := by
  rwa [runLabels, List.map_cons, List.foldlM_cons, Option.bind_eq_bind,
    Option.bind_eq_some_iff] at h

theorem run_over (hx : x.Sound) (hover : x.Over)
    (h : runLabels (Connection.next Json.parse) x (events.map Event.label) = some y) :
    y.frames = x.frames := by
  induction events generalizing x with
  | nil => exact Option.some.inj h ▸ rfl
  | cons e events ih =>
    obtain ⟨z, hnext, hrest⟩ := runLabels_cons h
    obtain ⟨hz, hframes⟩ := next_over hx hover hnext
    exact (ih (next_sound hx hnext) hz hrest).trans hframes

theorem run_listens (hx : x.Sound) (hlistens : x.Listens)
    (h : runLabels (Connection.next Json.parse) x (events.map Event.label) = some y) :
    y.frames = x.frames ++ ((events.takeWhile (!·.label.isEnd)).filterMap Event.message).map
      TerminalMessage.bytes := by
  induction events generalizing x with
  | nil =>
    obtain rfl := Option.some.inj h
    simp
  | cons e events ih =>
    obtain ⟨z, hnext, hrest⟩ := runLabels_cons h
    have hstep := next_listens hx hlistens hnext
    have hz := next_sound hx hnext
    cases hend : e.label.isEnd with
    | true =>
      rw [hend, if_pos rfl] at hstep
      rw [run_over hz hstep.1 hrest, hstep.2]
      simp [hend]
    | false =>
      rw [hend, if_neg Bool.false_ne_true] at hstep
      rw [ih hz hstep.1 hrest, hstep.2]
      cases hmessage : e.message <;> simp [hend, hmessage]

theorem run_early (hx : x.Sound) (hearly : x.Early)
    (h : runLabels (Connection.next Json.parse) x (events.map Event.label) = some y) :
    y.frames = (inTime events).map TerminalMessage.bytes := by
  induction events generalizing x with
  | nil =>
    obtain rfl := Option.some.inj h
    exact hearly.1
  | cons e events ih =>
    obtain ⟨z, hnext, hrest⟩ := runLabels_cons h
    have hstep := next_early hx hearly hnext
    have hz := next_sound hx hnext
    cases hopening : e.label.isOpening with
    | true =>
      rw [hopening, if_pos rfl] at hstep
      rw [run_listens hz hstep.1 hrest, hstep.2]
      simp [inTime, hopening]
    | false =>
      rw [hopening, if_neg Bool.false_ne_true] at hstep
      rw [ih hz hstep hrest]
      simp [inTime, hopening]

end Events

/-- The size the page sends when its own socket opens is lost, and so is what is typed after
the shell has gone. -/
def typedSession : List Event := [
  .page (.resize 100 30), .elsewhere (.session (some (some administrator)) 0 cluster) rfl,
  .elsewhere .execOpen rfl, .page (.input "ls\r"), .page (.resize 80 24),
  .elsewhere (.execClose 1000 "") rfl, .page (.input "x")]

end Minikura.Backend.Terminal
