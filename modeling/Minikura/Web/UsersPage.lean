import Minikura.Backend.UserService
import Minikura.Concurrency.Latest
import Minikura.Concurrency.Machine

/-!
# The page of the users

The page of the users fetches them when it is opened and after each of its changes. Answers may
overtake one another, others change the users too, and requests may fail, also after they have
been carried out.

## Main definitions

* `Form` — what the four handlers ask for, and what they turn down themselves.
* `System.next` — the page, the requests on their way and the users in the database.
* `System.Current` — what the page shows.

## Main results

* `users_page` — the page never goes back in time, and shows every change that it knows of.
-/

namespace Minikura.Web.Users
open Backend Concurrency

/-! ## Forms -/

/-- What is asked for about a user as the page shows it. -/
inductive Form where
  | edit (user : User) (name : String) (role : Option String)
  /-- The field is empty, holds no date, or holds one. -/
  | suspend (user : User) (suspendedUntil : Option (Option Time))
  | unsuspend (userId : String)
  | delete (user : User)

namespace Form

def key : Form → String
  | .edit user _ _ => "edit:" ++ user.id
  | .suspend user _ => "suspend:" ++ user.id
  | .unsuspend userId => "unsuspend:" ++ userId
  | .delete user => "delete:" ++ user.id

/-- The role that `handleEdit` sends. -/
def roleOf (me : Option String) (user : User) (role : Option String) : String :=
  if some user.id = me then user.role else (role.filter (· ≠ "")).getD user.role

/-- What a handler says instead of sending a request. -/
def refusal (me : Option String) (now : Time) : Form → Option String
  | .edit user _ role =>
    if some user.id = me ∧ roleOf me user role ≠ "admin" then
      some "You cannot remove your own administrator access."
    else none
  | .suspend user suspendedUntil =>
    if some user.id = me then some "You cannot suspend your own account."
    else if suspendedUntil.any (·.all (· ≤ now)) then
      some "Suspension end time must be in the future."
    else none
  | .unsuspend _ => none
  | .delete user =>
    if some user.id = me then some "You cannot delete your own account." else none

/-- `updateUserSchema` knows these roles. -/
def readRole (role : String) : Option UserRole :=
  if role = "admin" then some .admin else if role = "user" then some .user else none

/-- What the backend is asked for, if the schema lets the body pass. -/
def call (requester : String) (me : Option String) : Form → Option UserCall
  | .edit user name role => do
    guard (name ≠ "")
    let role ← readRole (roleOf me user role)
    return .updateUser requester user.id { name := some name, role := some role }
  | .suspend user suspendedUntil =>
    some (.updateSuspension requester user.id
      { isSuspended := true, suspendedUntil := some suspendedUntil.join })
  | .unsuspend userId =>
    some (.updateSuspension requester userId
      { isSuspended := false, suspendedUntil := some none })
  | .delete user => some (.deleteUser requester user.id)

end Form

/-! ## The page -/

structure Page where
  users : List User := []
  loading : Bool := true
  error : Option String := none
  pendingAction : Option String := none

namespace Page

/-- `fetchUsers` up to its request. -/
def fetchUsers (page : Page) : Page := { page with loading := true, error := none }

/-- The rest of `fetchUsers`, by whether its number is the current one. -/
def received (page : Page) (isCurrent : Bool) : Except String (List User) → Page
  | .ok data =>
    { page with
      users := if isCurrent then data else page.users
      loading := if isCurrent then false else page.loading }
  | .error message =>
    { page with
      error := if isCurrent then some message else page.error
      loading := if isCurrent then false else page.loading }

/-- The `finally` block of the handler that waited for a fetch, if one did. -/
def finished (page : Page) (key : Option String) : Page :=
  if key.isSome then { page with pendingAction := none } else page

def submitted (page : Page) (form : Form) : Option String → Page
  | some message => { page with error := some message }
  | none => { page with pendingAction := some form.key, error := none }

/-- The `catch` and the `finally` block of a handler. -/
def failed (page : Page) (message : String) : Page :=
  { page with error := some message, pendingAction := none }

end Page

/-! ## The system -/

/-- A request for a change. The response remembers the version that the change made. -/
structure Action where
  form : Form
  response : Option (Except String ℕ) := none

structure System where
  /-- The user of the session, and what the page knows of it. -/
  requester : String
  me : Option String
  /-- The users in the database, and the fetches, each for the action that waits for it.
  `issued` is `fetchSequence.current`. -/
  reader : Reader UserTable (Option String)
  page : Page := {}
  actions : List Action := []
  /-- The newest change that the page knows to be made. -/
  confirmed : ℕ := 0

inductive Label where
  | fetchUsers
  | answerFetch (sequence : ℕ)
  | finishFetch (sequence : ℕ)
  | failFetch (sequence : ℕ) (message : String)
  | submit (form : Form) (now : Time)
  /-- The message is that of a failure. -/
  | serveAction (i : ℕ) (env : Circumstances) (message : String)
  /-- The request is carried out, and the response is lost. -/
  | loseAction (i : ℕ) (env : Circumstances) (message : String)
  /-- The request is not carried out. -/
  | refuseAction (i : ℕ) (message : String)
  | finishAction (i : ℕ)
  /-- Somebody else changes the users. -/
  | elsewhere (table : UserTable)

namespace System

def fetch (x : System) (sequence : ℕ) : Option (Read UserTable (Option String)) :=
  x.reader.reads.find? (·.number = sequence)

/-- The end of a fetch. -/
def received (x : System) (r : Read UserTable (Option String))
    (response : Except String (List User)) : Page :=
  (x.page.received (r.number = x.reader.issued) response).finished r.tag

/-- What becomes of the users when a request is carried out, if it succeeds. -/
def carryOut (x : System) (form : Form) (env : Circumstances) : Option UserTable :=
  match form.call x.requester x.me with
  | none => none
  | some call =>
    match call.run env x.reader.current with
    | (.ok _, table) => some table
    | (.error _, _) => none

def respond (x : System) (i : ℕ) (a : Action) (response : Except String ℕ) : System :=
  { x with actions := x.actions.set i { a with response := some response } }

/-- An action that waits for its response. -/
def waiting (x : System) (i : ℕ) : Option Action :=
  x.actions[i]?.filter (·.response.isNone)

def next (x : System) : Label → Option System
  | .fetchUsers => some { x with reader := x.reader.start none, page := x.page.fetchUsers }
  | .answerFetch sequence =>
    match x.fetch sequence with
    | some r => if r.found.isNone then some { x with reader := x.reader.answer sequence } else none
    | none => none
  | .finishFetch sequence =>
    match x.fetch sequence with
    | some r =>
      match r.found with
      | some f => some { x with
          reader := x.reader.take r.number f
          page := x.received r (.ok f.2.users) }
      | none => none
    | none => none
  | .failFetch sequence message =>
    match x.fetch sequence with
    | some r => some { x with
        reader := x.reader.drop r.number
        page := x.received r (.error message) }
    | none => none
  | .submit form now =>
    let refusal := form.refusal x.me now
    some { x with
      page := x.page.submitted form refusal
      actions := if refusal.isSome then x.actions else x.actions ++ [{ form }] }
  | .serveAction i env message =>
    match x.waiting i with
    | some a =>
      match x.carryOut a.form env with
      | some table =>
        some (System.respond { x with reader := x.reader.change table } i a
          (.ok (x.reader.version + 1)))
      | none => some (x.respond i a (.error message))
    | none => none
  | .loseAction i env message =>
    match x.waiting i with
    | some a =>
      match x.carryOut a.form env with
      | some table =>
        some (System.respond { x with reader := x.reader.change table } i a (.error message))
      | none => none
    | none => none
  | .refuseAction i message =>
    match x.waiting i with
    | some a => some (x.respond i a (.error message))
    | none => none
  | .finishAction i =>
    match x.actions[i]? with
    | some ⟨form, some (.ok version)⟩ => some { x with
        reader := x.reader.start (some form.key)
        page := x.page.fetchUsers
        actions := x.actions.eraseIdx i
        confirmed := max x.confirmed version }
    | some ⟨_, some (.error message)⟩ => some { x with
        page := x.page.failed message
        actions := x.actions.eraseIdx i }
    | _ => none
  | .elsewhere table => some { x with reader := x.reader.change table }

/-! ## What the page shows -/

/-- The users of the version that is shown, if one is. -/
def shownUsers (x : System) : List User := x.reader.shown.elim [] (·.2.users)

structure Good (x : System) : Prop where
  reader : x.reader.Good
  loading : x.page.loading = true ↔ x.reader.issued = 0 ∨ x.reader.Pending
  users : x.page.users = x.shownUsers
  numbered : ∀ r ∈ x.reader.reads, 0 < r.number
  confirmed : x.confirmed ≤ x.reader.asked
  made : ∀ a ∈ x.actions, ∀ v, a.response = some (.ok v) → v ≤ x.reader.version

variable {x y : System}

theorem fetch_eq_some {sequence : ℕ} {r : Read UserTable (Option String)}
    (h : x.fetch sequence = some r) : r ∈ x.reader.reads ∧ r.number = sequence := by
  have hfound := List.find?_some h
  exact ⟨List.mem_of_find?_eq_some h, by simpa using hfound⟩

@[simp] theorem users_finished (page : Page) (key : Option String) :
    (page.finished key).users = page.users := by
  unfold Page.finished
  split_ifs <;> rfl

@[simp] theorem loading_finished (page : Page) (key : Option String) :
    (page.finished key).loading = page.loading := by
  unfold Page.finished
  split_ifs <;> rfl

theorem good_fetchUsers (h : x.Good) (key : Option String) {confirmed : ℕ}
    (hconfirmed : confirmed ≤ x.reader.version) {actions : List Action}
    (hactions : actions ⊆ x.actions) :
    Good { x with
      reader := x.reader.start key
      page := x.page.fetchUsers
      actions := actions
      confirmed := confirmed } where
  reader := Reader.good_start h.reader key
  loading := ⟨fun _ => .inr (Reader.pending_start key), fun _ => rfl⟩
  users := h.users
  numbered r hr := by
    rcases List.mem_cons.mp hr with rfl | hr
    · exact Nat.succ_pos _
    · exact h.numbered r hr
  confirmed := hconfirmed
  made a ha := h.made a (hactions ha)

theorem good_answerFetch (h : x.Good) (sequence : ℕ) :
    Good { x with reader := x.reader.answer sequence } where
  reader := Reader.good_answer h.reader sequence
  loading := h.loading.trans (or_congr Iff.rfl Reader.pending_answer.symm)
  users := h.users
  numbered r hr := by
    obtain ⟨q, hq, hnumber, -⟩ := Reader.mem_reads_answer hr
    exact hnumber ▸ h.numbered q hq
  confirmed := h.confirmed
  made := h.made

/-- The page stops loading with the newest fetch. -/
theorem loading_of_received (h : x.Good) {r : Read UserTable (Option String)}
    (hr : r ∈ x.reader.reads) (response : Except String (List User)) :
    (x.received r response).loading = true ↔
      x.reader.issued = 0 ∨ x.reader.Pending ∧ r.number ≠ x.reader.issued := by
  have hpositive := h.numbered r hr
  have hloading := h.loading
  rw [received, loading_finished]
  by_cases hnewest : r.number = x.reader.issued
  · have hissued : x.reader.issued ≠ 0 := by omega
    cases response <;> simp [Page.received, hnewest, hissued]
  · cases response <;> simpa [Page.received, hnewest] using hloading

theorem good_finishFetch (h : x.Good) {r : Read UserTable (Option String)}
    (hr : r ∈ x.reader.reads) {f : ℕ × UserTable} (hf : r.found = some f) :
    Good { x with
      reader := x.reader.take r.number f
      page := x.received r (.ok f.2.users) } := by
  obtain ⟨hreads, hissued, hasked, hversion⟩ := @Reader.take_fields _ _ x.reader r.number f
  refine ⟨Reader.good_take h.reader hr hf, ?_, ?_, ?_, ?_, ?_⟩
  · rw [loading_of_received h hr, Reader.pending_take, hissued]
  · have husers := h.users
    rw [received, users_finished, shownUsers]
    unfold Reader.take
    by_cases hnewest : r.number = x.reader.issued
    · simp [Page.received, hnewest]
    · simp only [Page.received, hnewest, decide_false, Bool.false_eq_true, if_false]
      exact husers
  · intro q hq
    rw [hreads] at hq
    exact h.numbered q (Reader.mem_reads_drop.mp hq).1
  · rw [hasked]
    exact h.confirmed
  · intro a ha v hv
    rw [hversion]
    exact h.made a ha v hv

theorem good_failFetch (h : x.Good) {r : Read UserTable (Option String)}
    (hr : r ∈ x.reader.reads) (message : String) :
    Good { x with
      reader := x.reader.drop r.number
      page := x.received r (.error message) } where
  reader := Reader.good_drop h.reader r.number
  loading := (loading_of_received h hr _).trans (or_congr Iff.rfl Reader.pending_drop.symm)
  users := by
    rw [received, users_finished]
    exact h.users
  numbered q hq := h.numbered q (Reader.mem_reads_drop.mp hq).1
  confirmed := h.confirmed
  made := h.made

theorem good_change (h : x.Good) (table : UserTable) :
    Good { x with reader := x.reader.change table } where
  reader := Reader.good_change h.reader table
  loading := h.loading
  users := h.users
  numbered := h.numbered
  confirmed := h.confirmed
  made a ha v hv := Nat.le_succ_of_le (h.made a ha v hv)

theorem good_respond (h : x.Good) {i : ℕ} {a : Action} {response : Except String ℕ}
    (hmade : ∀ v, response = .ok v → v ≤ x.reader.version) : (x.respond i a response).Good where
  reader := h.reader
  loading := h.loading
  users := h.users
  numbered := h.numbered
  confirmed := h.confirmed
  made b hb v hv := by
    rcases List.mem_or_eq_of_mem_set hb with hb | rfl
    · exact h.made b hb v hv
    · exact hmade v (Option.some.inj hv)

theorem good_refused (h : x.Good) {i : ℕ} {a : Action} {message : String} :
    (x.respond i a (.error message)).Good := by
  refine good_respond h ?_
  intro v hv
  cases hv

theorem good_submit (h : x.Good) (form : Form) (now : Time) {y : System}
    (hstep : x.next (.submit form now) = some y) : y.Good := by
  obtain rfl := Option.some.inj hstep
  refine ⟨h.reader, ?_, ?_, h.numbered, h.confirmed, ?_⟩
  · cases form.refusal x.me now <;> exact h.loading
  · cases form.refusal x.me now <;> exact h.users
  · intro a ha v hv
    dsimp only at ha
    split_ifs at ha
    · exact h.made a ha v hv
    · rcases List.mem_append.mp ha with ha | ha
      · exact h.made a ha v hv
      · obtain rfl := List.mem_singleton.mp ha
        cases hv

theorem good_failed (h : x.Good) (message : String) (i : ℕ) :
    Good { x with page := x.page.failed message, actions := x.actions.eraseIdx i } where
  reader := h.reader
  loading := h.loading
  users := h.users
  numbered := h.numbered
  confirmed := h.confirmed
  made a ha := h.made a (List.eraseIdx_subset ha)

/-- Every step keeps what holds of the page, and never goes back in time. -/
theorem good_next (h : x.Good) {l : Label} (hstep : x.next l = some y) :
    y.Good ∧ x.reader.Before y.reader := by
  cases l with
  | fetchUsers =>
    obtain rfl := Option.some.inj hstep
    exact ⟨good_fetchUsers h none (Nat.le_trans h.confirmed h.reader.asked) (List.Subset.refl _),
      Reader.before_of_same rfl rfl rfl⟩
  | answerFetch sequence =>
    simp only [next] at hstep
    split at hstep
    · split_ifs at hstep
      obtain rfl := Option.some.inj hstep
      exact ⟨good_answerFetch h sequence, Reader.before_of_same rfl rfl rfl⟩
    · cases hstep
  | finishFetch sequence =>
    simp only [next] at hstep
    split at hstep
    · rename_i r hfetch
      split at hstep
      · rename_i f hf
        obtain rfl := Option.some.inj hstep
        have hr := (fetch_eq_some hfetch).1
        exact ⟨good_finishFetch h hr hf, h.reader.before_take hr hf⟩
      · cases hstep
    · cases hstep
  | failFetch sequence message =>
    simp only [next] at hstep
    split at hstep
    · rename_i r hfetch
      obtain rfl := Option.some.inj hstep
      exact ⟨good_failFetch h (fetch_eq_some hfetch).1 message,
        Reader.before_of_same rfl rfl rfl⟩
    · cases hstep
  | submit form now =>
    refine ⟨good_submit h form now hstep, ?_⟩
    obtain rfl := Option.some.inj hstep
    exact Reader.Before.refl _
  | serveAction i env message =>
    simp only [next] at hstep
    split at hstep
    · split at hstep
      · rename_i table _
        obtain rfl := Option.some.inj hstep
        refine ⟨good_respond (good_change h table) ?_, Reader.before_change x.reader table⟩
        intro v hv
        obtain rfl := Except.ok.inj hv
        exact Nat.le_refl _
      · obtain rfl := Option.some.inj hstep
        exact ⟨good_refused h, Reader.Before.refl _⟩
    · cases hstep
  | loseAction i env message =>
    simp only [next] at hstep
    split at hstep
    · split at hstep
      · rename_i table _
        obtain rfl := Option.some.inj hstep
        exact ⟨good_refused (good_change h table), Reader.before_change x.reader table⟩
      · cases hstep
    · cases hstep
  | refuseAction i message =>
    simp only [next] at hstep
    split at hstep
    · obtain rfl := Option.some.inj hstep
      exact ⟨good_refused h, Reader.Before.refl _⟩
    · cases hstep
  | finishAction i =>
    simp only [next] at hstep
    split at hstep
    · rename_i form version haction
      obtain rfl := Option.some.inj hstep
      have hmade := h.made _ (List.mem_of_getElem? haction) version rfl
      have hconfirmed := Nat.le_trans h.confirmed h.reader.asked
      exact ⟨good_fetchUsers h (some form.key) (Nat.max_le.mpr ⟨hconfirmed, hmade⟩)
        List.eraseIdx_subset, Reader.before_of_same rfl rfl rfl⟩
    · rename_i message _
      obtain rfl := Option.some.inj hstep
      exact ⟨good_failed h message i, Reader.Before.refl _⟩
    · cases hstep
  | elsewhere table =>
    obtain rfl := Option.some.inj hstep
    exact ⟨good_change h table, Reader.before_change x.reader table⟩

/-! ## Runs -/

/-- The page when it is opened. -/
def opened (requester : String) (me : Option String) (table : UserTable) : System :=
  { requester, me, reader := { values := fun _ => table } }

theorem good_opened (requester : String) (me : Option String) (table : UserTable) :
    (opened requester me table).Good where
  reader := Reader.good_initial _
  loading := by simp [opened]
  users := rfl
  numbered := by simp [opened]
  confirmed := Nat.le_refl _
  made := by simp [opened]

/-- What the page shows, and when it is up to date. -/
structure Current (x : System) : Prop where
  /-- It loads until the answer to its newest fetch is there. -/
  loading : x.page.loading = true ↔ x.reader.issued = 0 ∨ x.reader.Pending
  /-- It shows the users as they were in one version. -/
  users : x.page.users = x.shownUsers
  version : ∀ f ∈ x.reader.shown, f.1 ≤ x.reader.version ∧ x.reader.values f.1 = f.2
  /-- If the newest fetch has found the users, the page shows them as they were after it was
  started, and after every change that the page knows to be made. -/
  fresh : x.reader.taken = true →
    ∃ f ∈ x.reader.shown, x.reader.asked ≤ f.1 ∧ x.confirmed ≤ f.1

theorem Good.current (h : x.Good) : x.Current where
  loading := h.loading
  users := h.users
  version := h.reader.shown
  fresh htaken := by
    obtain ⟨f, hf, hasked⟩ := h.reader.fresh htaken
    exact ⟨f, hf, hasked, Nat.le_trans h.confirmed hasked⟩

theorem Good.runs (h : x.Good) (run : Runs next Anything x y) :
    y.Good ∧ x.reader.Before y.reader := by
  refine Runs.invariant (I := fun z => z.Good ∧ x.reader.Before z.reader) ?_ run
    ⟨h, Reader.Before.refl _⟩
  rintro s l t ⟨hs, hbefore⟩ - hstep
  obtain ⟨ht, hst⟩ := good_next hs hstep
  exact ⟨ht, hbefore.trans hst⟩

/-- However fetches, changes and failures follow one another, the page shows the users as they
were in one version; as soon as its newest fetch has found them, that is none before the newest
change it knows of; and it never shows an older version than before. -/
theorem users_page {requester : String} {me : Option String} {table : UserTable}
    (run : Runs next Anything (opened requester me table) x) (later : Runs next Anything x y) :
    y.Current ∧ x.reader.Before y.reader := by
  obtain ⟨hx, -⟩ := (good_opened requester me table).runs run
  obtain ⟨hy, hbefore⟩ := hx.runs later
  exact ⟨hy.current, hbefore⟩

end System

/-! ## Fetches that overtake one another -/

def ana : User := ⟨"a", "Ana", "admin", false, none, false⟩
def cleo : User := ⟨"c", "Cleo", "user", false, none, false⟩

/-- The page is opened by an administrator. -/
def fresh : System := .opened "a" (some "a") { users := [ana, cleo], keys := by decide }

/-- The first answer is on its way while a user is deleted. -/
def deletion : List Label := [
  .fetchUsers, .answerFetch 1, .submit (.delete cleo) 5, .serveAction 0 ⟨5, 5, 5, .ok ()⟩ "",
  .finishAction 0]

/-- It comes after the answer to the fetch that the deletion has started. -/
def overtaken : List Label := [.answerFetch 2, .finishFetch 2, .finishFetch 1]

def deleted : Option System := runLabels System.next fresh deletion

def settled : Option System := deleted.bind fun x => runLabels System.next x overtaken

theorem users_page_overtaken : ∃ x y : System,
    y.page.users = [ana] ∧ y.Current ∧ x.reader.Before y.reader := by
  obtain ⟨x, hx⟩ := Option.isSome_iff_exists.mp (by decide +kernel : deleted.isSome)
  obtain ⟨y, hy⟩ := Option.isSome_iff_exists.mp (by decide +kernel : settled.isSome)
  have husers : settled.map (·.page.users) = some [ana] := by decide +kernel
  rw [hy] at husers
  rw [settled, hx] at hy
  have run : Runs System.next Anything fresh x := runs_of_labels (fun _ _ _ => trivial) hx
  have later : Runs System.next Anything x y := runs_of_labels (fun _ _ _ => trivial) hy
  exact ⟨x, y, Option.some.inj husers, System.users_page run later⟩

end Minikura.Web.Users
