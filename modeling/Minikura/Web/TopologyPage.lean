import Mathlib.Data.List.Pairwise
import Minikura.Concurrency.Machine

/-!
# The topology page

Every call of `fetchTopologyData` has a number, and only the newest call may write what it has
found. It also clears the flags: `refreshing` in any case, but `loading` only if it is not a
refresh. The graph is a parameter, and a call is followed from its start to its outcome.

## Main definitions

* `Page.next` — the start and the end of a call.
* `Page.Settles` — what the page shows when no call is pending.

## Main results

* `next_loadingOwned_iff` — only a refresh that is started while the page loads keeps it loading.
* `topology_page_settles` — without one, the page settles on its newest call.
-/

namespace Minikura.Web.Topology

open Concurrency

inductive Outcome (Graph : Type) where
  | loaded (graph : Graph)
  | failed (message : String)
deriving Repr, DecidableEq

structure Call (Graph : Type) where
  sequence : ℕ
  isRefresh : Bool
  /-- The graph when the call was started. -/
  before : Option Graph
  /-- `none` as long as the call is pending. -/
  outcome : Option (Outcome Graph) := none
deriving Repr, DecidableEq

structure Page (Graph : Type) where
  requestSequence : ℕ := 0
  /-- The newest comes first. -/
  calls : List (Call Graph) := []
  graph : Option Graph := none
  loading : Bool := true
  error : Option String := none
  isInitialLoad : Bool := true
  refreshing : Bool := false
deriving Repr, DecidableEq

variable {Graph : Type}

namespace Page

/-- `fetchTopologyData` up to its first request. -/
def start (x : Page Graph) (isRefresh : Bool) : Page Graph :=
  { x with
    requestSequence := x.requestSequence + 1
    calls := ⟨x.requestSequence + 1, isRefresh, x.graph, none⟩ :: x.calls
    refreshing := if isRefresh then true else x.refreshing
    loading := if isRefresh then x.loading else true
    error := none }

/-- The end of the `try` block, or its `catch` block. -/
def report (x : Page Graph) : Outcome Graph → Page Graph
  | .loaded graph => { x with graph := some graph, error := none }
  | .failed message => { x with error := some message }

/-- The `finally` block of the newest call. -/
def finish (x : Page Graph) (isRefresh : Bool) : Page Graph :=
  { x with
    isInitialLoad := false
    loading := if isRefresh then x.loading else false
    refreshing := false }

def record (x : Page Graph) (sequence : ℕ) (outcome : Outcome Graph) : Page Graph :=
  { x with calls := x.calls.map fun c =>
      if c.sequence = sequence then { c with outcome := some outcome } else c }

end Page

/-! ## Steps -/

inductive Start where
  /-- The effect of the server list. -/
  | effect
  | retryNow
  | retryButton
  | interval
deriving Repr, DecidableEq

def Start.isRefresh : Start → Bool
  | .effect | .retryNow => false
  | .retryButton | .interval => true

inductive Label (Graph : Type) where
  | start (start : Start)
  | complete (sequence : ℕ) (outcome : Outcome Graph)

def Page.next (x : Page Graph) : Label Graph → Option (Page Graph)
  | .start start => some (x.start start.isRefresh)
  | .complete sequence outcome =>
    match x.calls.find? (·.sequence = sequence) with
    | some ⟨_, isRefresh, _, none⟩ =>
      if sequence = x.requestSequence then
        some (((x.report outcome).finish isRefresh).record sequence outcome)
      else some (x.record sequence outcome)
    | _ => none

/-- What the page lets happen: the interval runs after the first load, and the buttons are
shown with an error. -/
def Offered (x : Page Graph) : Label Graph → Prop
  | .start .interval => x.isInitialLoad = false
  | .start .retryNow => x.loading = false ∧ x.error.isSome ∧ x.graph.isNone
  | .start .retryButton =>
    x.loading = false ∧ x.error.isSome ∧ x.graph.isSome ∧ x.refreshing = false
  | _ => True

/-- No refresh is started while the page is loading. -/
def Patient (x : Page Graph) : Label Graph → Prop
  | .start start => start.isRefresh = true → x.loading = false
  | _ => True

/-! ## Invariants -/

/-- What the page shows is the outcome of a call. -/
def Page.Shows (x : Page Graph) (c : Call Graph) : Outcome Graph → Prop
  | .loaded graph => x.graph = some graph ∧ x.error = none
  | .failed message => x.graph = c.before ∧ x.error = some message

/-- When no call is pending, the page shows the outcome of the newest. -/
def Page.Settles (x : Page Graph) : Prop :=
  (∀ c ∈ x.calls, c.outcome ≠ none) → ∀ c, x.calls.head? = some c →
    x.loading = false ∧ x.refreshing = false ∧ ∃ outcome, c.outcome = some outcome ∧
      x.Shows c outcome

/-- While the page is loading, its newest call has to end that. -/
def Page.LoadingOwned (x : Page Graph) : Prop :=
  x.loading = true → ∀ c, x.calls.head? = some c → c.outcome = none ∧ c.isRefresh = false

structure Page.Sound (x : Page Graph) : Prop where
  newest : ∀ c, x.calls.head? = some c → c.sequence = x.requestSequence
  refreshing : x.refreshing = true → ∃ c, x.calls.head? = some c ∧ c.outcome = none
  pending : ∀ c, x.calls.head? = some c → c.outcome = none → x.graph = c.before
  shows : ∀ c outcome, x.calls.head? = some c → c.outcome = some outcome → x.Shows c outcome

section Steps

variable {x y : Page Graph} {l : Label Graph}

/-- A step starts a call, ends the newest one, or ends one that has been superseded. -/
theorem next_cases (hx : x.Sound) (h : x.next l = some y) :
    (∃ start, l = .start start ∧ y = x.start start.isRefresh) ∨
    (∃ c outcome, l = .complete x.requestSequence outcome ∧ x.calls.head? = some c ∧
      c.outcome = none ∧
      y = ((x.report outcome).finish c.isRefresh).record x.requestSequence outcome) ∨
    (∃ sequence outcome, l = .complete sequence outcome ∧ sequence ≠ x.requestSequence ∧
      y = x.record sequence outcome) := by
  cases l with
  | start start => exact .inl ⟨start, rfl, (Option.some.inj h).symm⟩
  | complete sequence outcome =>
    simp only [Page.next] at h
    split at h
    · next n isRefresh before hfind =>
      split_ifs at h with hnewest
      · subst hnewest
        obtain rfl := Option.some.inj h
        cases hcalls : x.calls with
        | nil => simp [hcalls] at hfind
        | cons c calls =>
          have hc := hx.newest c (by simp [hcalls])
          rw [hcalls, List.find?_cons_of_pos (by simpa using hc)] at hfind
          obtain rfl := Option.some.inj hfind
          exact .inr (.inl ⟨_, outcome, rfl, rfl, rfl, rfl⟩)
      · exact .inr (.inr ⟨sequence, outcome, rfl, hnewest, (Option.some.inj h).symm⟩)
    · cases h

theorem head?_record_of_ne (hx : x.Sound) {sequence : ℕ} (h : sequence ≠ x.requestSequence)
    (outcome : Outcome Graph) :
    (x.record sequence outcome).calls.head? = x.calls.head? := by
  rw [Page.record, List.head?_map]
  cases hc : x.calls.head? with
  | none => rfl
  | some c =>
    have hne : c.sequence ≠ sequence := fun heq => h (heq.symm.trans (hx.newest c hc))
    rw [Option.map_some, if_neg hne]

/-- The newest call with its outcome. -/
theorem head?_record_newest {c : Call Graph} (hx : x.Sound) (hc : x.calls.head? = some c)
    (outcome : Outcome Graph) :
    (((x.report outcome).finish c.isRefresh).record x.requestSequence outcome).calls.head? =
      some { c with outcome := some outcome } := by
  have hcalls : ((x.report outcome).finish c.isRefresh).calls = x.calls := by
    cases outcome <;> rfl
  rw [Page.record, List.head?_map, hcalls, hc, Option.map_some, if_pos (hx.newest c hc)]

theorem start_sound (x : Page Graph) (isRefresh : Bool) : (x.start isRefresh).Sound where
  newest c hc := by
    obtain rfl : _ = c := Option.some.inj hc
    rfl
  refreshing _ := ⟨_, rfl, rfl⟩
  pending c hc _ := by
    obtain rfl : _ = c := Option.some.inj hc
    rfl
  shows c outcome hc houtcome := by
    obtain rfl : _ = c := Option.some.inj hc
    cases houtcome

theorem shows_report {c : Call Graph} (hgraph : x.graph = c.before) (outcome : Outcome Graph) :
    (x.report outcome).Shows { c with outcome := some outcome } outcome := by
  cases outcome with
  | loaded graph => exact ⟨rfl, rfl⟩
  | failed message => exact ⟨hgraph, rfl⟩

theorem next_sound (hx : x.Sound) (h : x.next l = some y) : y.Sound := by
  rcases next_cases hx h with ⟨start, -, rfl⟩ | ⟨c, outcome, -, hc, hpending, rfl⟩ |
    ⟨sequence, outcome, -, hne, rfl⟩
  · exact start_sound x start.isRefresh
  · have hhead := head?_record_newest hx hc outcome
    have hsequence : (((x.report outcome).finish c.isRefresh).record x.requestSequence
        outcome).requestSequence = x.requestSequence := by
      cases outcome <;> rfl
    have hshows := shows_report (hx.pending c hc hpending) outcome
    refine ⟨fun d hd => ?_, fun hrefreshing => ?_, fun d hd hnone => ?_, fun d o hd ho => ?_⟩
    · obtain rfl := Option.some.inj (hhead.symm.trans hd)
      exact (hx.newest c hc).trans hsequence.symm
    · cases hrefreshing
    · obtain rfl := Option.some.inj (hhead.symm.trans hd)
      cases hnone
    · obtain rfl := Option.some.inj (hhead.symm.trans hd)
      obtain rfl := Option.some.inj ho
      cases outcome <;> exact hshows
  · have hhead := head?_record_of_ne hx hne outcome
    exact ⟨fun d hd => hx.newest d (hhead ▸ hd),
      fun hrefreshing => hhead.symm ▸ hx.refreshing hrefreshing,
      fun d hd => hx.pending d (hhead ▸ hd), fun d o hd => hx.shows d o (hhead ▸ hd)⟩

/-- Only a refresh that is started while the page loads takes the newest place from the call
that has to end the loading. -/
theorem next_loadingOwned_iff (hx : x.Sound) (howned : x.LoadingOwned)
    (h : x.next l = some y) : y.LoadingOwned ↔ Patient x l := by
  rcases next_cases hx h with ⟨start, rfl, rfl⟩ | ⟨c, outcome, rfl, hc, hpending, rfl⟩ |
    ⟨sequence, outcome, rfl, hne, rfl⟩
  · simp only [Page.LoadingOwned, Page.start, List.head?_cons, Option.some.injEq, forall_eq',
      true_and, Patient]
    cases start.isRefresh with
    | true => simp
    | false => simp
  · refine ⟨fun _ => trivial, fun _ hloading => ?_⟩
    have hflag : (if c.isRefresh then x.loading else false) = true := by
      cases outcome <;> exact hloading
    split_ifs at hflag with hrefresh
    exact absurd ((howned hflag c hc).2.symm.trans hrefresh) (by decide)
  · refine ⟨fun _ => trivial, fun _ hloading => ?_⟩
    rw [head?_record_of_ne hx hne]
    exact howned hloading

end Steps

theorem settles_of_sound {x : Page Graph} (hx : x.Sound) (howned : x.LoadingOwned) :
    x.Settles := by
  intro hsettled c hc
  have hdone : c.outcome ≠ none := hsettled c (List.mem_of_mem_head? hc)
  obtain ⟨outcome, houtcome⟩ := Option.ne_none_iff_exists'.mp hdone
  refine ⟨?_, ?_, outcome, houtcome, hx.shows c outcome hc houtcome⟩
  · refine Bool.eq_false_iff.mpr fun hloading => hdone (howned hloading c hc).1
  · refine Bool.eq_false_iff.mpr fun hrefreshing => ?_
    obtain ⟨d, hd, hnone⟩ := hx.refreshing hrefreshing
    obtain rfl := Option.some.inj (hc.symm.trans hd)
    exact hdone hnone

/-! ## Runs -/

def Page.initial : Page Graph := {}

/-- If no refresh is started while the page loads, it settles on its newest call. -/
theorem topology_page_settles {x : Page Graph} (h : Runs Page.next Patient .initial x) :
    x.Settles := by
  have hinv : x.Sound ∧ x.LoadingOwned := h.invariant
    (I := fun x => x.Sound ∧ x.LoadingOwned)
    (fun _ _ _ hx hl hy =>
      ⟨next_sound hx.1 hy, (next_loadingOwned_iff hx.1 hx.2 hy).mpr hl⟩)
    ⟨⟨by simp [Page.initial], by simp [Page.initial], by simp [Page.initial],
      by simp [Page.initial]⟩, by simp [Page.LoadingOwned, Page.initial]⟩
  exact settles_of_sound hinv.1 hinv.2

instance (x : Page Graph) (l : Label Graph) : Decidable (Patient x l) := by
  unfold Patient
  split <;> infer_instance

instance (x : Page Graph) (l : Label Graph) : Decidable (Offered x l) := by
  unfold Offered
  split <;> infer_instance

/-- A refresh fails after the first load. -/
def failingRefresh : List (Label ℕ) := [
  .start .effect, .complete 1 (.loaded 7), .start .interval, .complete 2 (.failed "timeout")]

/-- The first load fails, and the interval comes while it is retried. -/
def interruptedRetry : List (Label ℕ) := [
  .start .effect, .complete 1 (.failed "timeout"), .start .retryNow, .start .interval,
  .complete 3 (.loaded 7), .complete 2 (.loaded 7)]

theorem topology_page_settles_failingRefresh : ∃ x : Page ℕ, x.Settles ∧
    x.graph = some 7 ∧ x.error = some "timeout" ∧ x.loading = false ∧ x.refreshing = false := by
  obtain ⟨x, hrun, hgraph, herror, hloading, hrefreshing⟩ : ∃ x : Page ℕ,
      runChecked (fun x l => decide (Patient x l)) Page.next .initial failingRefresh = some x ∧
      x.graph = some 7 ∧ x.error = some "timeout" ∧ x.loading = false ∧
      x.refreshing = false := ⟨_, rfl, rfl, rfl, rfl, rfl⟩
  exact ⟨x, topology_page_settles (runs_of_checked (fun _ _ h => of_decide_eq_true h) hrun),
    hgraph, herror, hloading, hrefreshing⟩

/-- The page keeps its loading screen, with steps that it offers. -/
theorem topology_page_stays_loading :
    ¬ ∀ x : Page ℕ, Runs Page.next Offered .initial x → x.Settles := by
  intro h
  obtain ⟨x, hrun, c, calls, hcalls, hsettled, hloading⟩ : ∃ x : Page ℕ,
      runChecked (fun x l => decide (Offered x l)) Page.next .initial interruptedRetry = some x ∧
      ∃ c calls, x.calls = c :: calls ∧ (∀ d ∈ x.calls, d.outcome ≠ none) ∧
        x.loading = true := ⟨_, rfl, _, _, rfl, by decide, rfl⟩
  have hstuck := h x (runs_of_checked (fun _ _ h => of_decide_eq_true h) hrun) hsettled c
    (by simp [hcalls])
  simp [hloading] at hstuck

end Minikura.Web.Topology
