import Minikura.Backend.Requests

/-!
# Updates that fail

An update of a server is made of up to four queries. Each of them may fail, and the database
turns down what does not fit it. What an earlier query has written stays written.

## Main definitions

* `failing` — the platform, with the queries that fail given by their position.
* `SparesVariables` — when a failure leaves the environment variables as they were.

## Main result

* `updateServer_changes_nothing_iff` — a rejected update leaves the server as it was exactly
  under this condition.
-/

namespace Minikura.Backend
open Concurrency

/-! ## Queries that fail -/

/-- Answer a call, unless it fails: then nothing is done. The calls are counted. -/
def failing (fates : Nat → Option Error) (c : Call) (x : Nat × State) :
    Settled Error Answer c × (Nat × State) :=
  match fates x.1 with
  | some e => (.error e, x.1 + 1, x.2)
  | none => ((handle c x.2).1, x.1 + 1, (handle c x.2).2)

/-- The row is there with the same columns and the same variables. -/
def Unchanged (id : String) (row : Server) (s : State) : Prop :=
  ∃ row', s.db.findServer id = some row' ∧
    { row' with envVariables := row.envVariables } = row ∧
    ∀ v, v ∈ row'.envVariables ↔ v ∈ row.envVariables

/-- After the query for the row and the deletion of the variables, the new ones are written, if
there are any. -/
def CreateFails (row : Server) (vars : List EnvVariable) (fates : Nat → Option Error) : Prop :=
  vars ≠ [] ∧ (fates 2 ≠ none ∨ !{ row with envVariables := vars }.storable)

/-- The last query writes the columns. -/
def ColumnsFail (row : Server) (vars : List EnvVariable) (input : UpdateServerInput)
    (fates : Nat → Option Error) : Prop :=
  fates (if vars = [] then 2 else 3) ≠ none ∨
    !({ row with envVariables := vars }.update input).storable

/-- When a failure leaves the environment variables as they were. With the deletion carried
out, none are left before the new ones are written, and the new ones afterwards. -/
def SparesVariables (row : Server) (input : UpdateServerInput) (fates : Nat → Option Error) :
    Prop :=
  ∀ vars, input.envVariables = some vars → fates 0 = none → fates 1 = none →
    (CreateFails row vars fates → row.envVariables = []) ∧
    (¬CreateFails row vars fates → ColumnsFail row vars input fates →
      ∀ v, v ∈ vars ↔ v ∈ row.envVariables)

/-! ## The calls of an update -/

section Calls

variable {fates : Nat → Option Error} {id : String} {row : Server} {n : Nat} {s : State}

theorem id_of_findServer {db : Database} (h : db.findServer id = some row) : row.id = id := by
  simpa [Database.findServer] using List.find?_some h

theorem findServer_setServer {db : Database} (new : Server) (h : db.findServer new.id = some row) :
    (db.setServer new).findServer new.id = some new := by
  have hsame : ((fun s : Server => decide (s.id = new.id)) ∘
      fun s => if s.id = new.id then new else s) = fun s => decide (s.id = new.id) := by
    funext s
    by_cases hs : s.id = new.id <;> simp [hs]
  have hid : row.id = new.id := id_of_findServer h
  rw [Database.findServer, Database.setServer, List.find?_map, hsame]
  rw [Database.findServer] at h
  rw [h, Option.map_some, if_pos hid]

/-- The next call is the `n`th, and the row is as given. -/
structure AtCall (id : String) (row : Server) (n : Nat) (x : Nat × State) : Prop where
  count : x.1 = n
  found : x.2.db.findServer id = some row

theorem AtCall.failed {c : Call} {x : Nat × State} {e : Error} (hx : AtCall id row n x)
    (he : fates n = some e) :
    ∃ y, failing fates c x = (.error e, y) ∧ AtCall id row (n + 1) y := by
  obtain ⟨rfl, hrow⟩ := hx
  exact ⟨(x.1 + 1, x.2), by rw [failing, he], rfl, hrow⟩

theorem AtCall.answered {c : Call} {x : Nat × State} {row' : Server} (hx : AtCall id row n x)
    (hn : fates n = none) (h : (handle c x.2).2.db.findServer id = some row') :
    ∃ y, failing fates c x = ((handle c x.2).1, y) ∧ AtCall id row' (n + 1) y := by
  obtain ⟨rfl, hrow⟩ := hx
  exact ⟨(x.1 + 1, (handle c x.2).2), by rw [failing, hn], rfl, h⟩

/-- What a query that edits the row comes to. -/
theorem updateServer_eq {f : Server → Server} (hrow : s.db.findServer id = some row)
    (hid : (f row).id = row.id) :
    (s.updateServer id f).1 = (if (f row).storable then .ok (f row)
        else .error (.ofConstraint "constraint violation")) ∧
      (s.updateServer id f).2.db.findServer id =
        some (if (f row).storable then f row else row) := by
  have hrowId := id_of_findServer hrow
  simp only [State.updateServer, hrow]
  split_ifs
  · refine ⟨rfl, ?_⟩
    rw [← hrowId, ← hid] at hrow ⊢
    exact findServer_setServer _ hrow
  · exact ⟨rfl, hrow⟩

theorem AtCall.deleteEnvVariables {x : Nat × State} (hx : AtCall id row n x)
    (hn : fates n = none) : ∃ y, failing fates (.deleteEnvVariables id) x = (.ok (), y) ∧
      AtCall id { row with envVariables := [] } (n + 1) y := by
  refine hx.answered hn ?_
  have hid := id_of_findServer hx.found
  simp only [handle, State.editServer, hx.found]
  subst hid
  exact findServer_setServer { row with envVariables := [] } hx.found

theorem AtCall.createEnvVariables {x : Nat × State} (vars : List EnvVariable)
    (hx : AtCall id { row with envVariables := [] } n x) (hn : fates n = none) :
    if { row with envVariables := vars }.storable then
      ∃ y, failing fates (.createEnvVariables id vars) x = (.ok (), y) ∧
        AtCall id { row with envVariables := vars } (n + 1) y
    else ∃ e y, failing fates (.createEnvVariables id vars) x = (.error e, y) ∧
      AtCall id { row with envVariables := [] } (n + 1) y := by
  obtain ⟨hanswer, hfound⟩ := updateServer_eq
    (f := fun row => { row with envVariables := row.envVariables ++ vars }) hx.found rfl
  simp only [List.nil_append] at hanswer hfound
  obtain ⟨y, hy, hat⟩ := hx.answered (c := .createEnvVariables id vars) hn hfound
  simp only [handle, State.updateServer', hanswer] at hy
  split_ifs at hy hat ⊢
  · exact ⟨y, hy, hat⟩
  · exact ⟨_, y, hy, hat⟩

theorem AtCall.updateServer {x : Nat × State} (input : UpdateServerInput)
    (hx : AtCall id row n x) (hn : fates n = none) :
    if (row.update input).storable then
      ∃ y, failing fates (.updateServer id input) x = (.ok (row.update input), y)
    else ∃ e y, failing fates (.updateServer id input) x = (.error e, y) ∧
      AtCall id row (n + 1) y := by
  obtain ⟨hanswer, hfound⟩ := updateServer_eq (f := (·.update input)) hx.found rfl
  obtain ⟨y, hy, hat⟩ := hx.answered (c := .updateServer id input) hn hfound
  simp only [handle, hanswer] at hy
  split_ifs at hy hat ⊢
  · exact ⟨y, hy⟩
  · exact ⟨_, y, hy, hat⟩

end Calls

/-! ## The update -/

section Update

variable {fates : Nat → Option Error} {id : String} {row : Server} {n : Nat} {x : Nat × State}
  {input : UpdateServerInput} {vars : List EnvVariable}

/-- Neither a failure nor the database keeps the columns from being written. -/
theorem eval_lastQuery (fates : Nat → Option Error) (input : UpdateServerInput)
    (hx : AtCall id row n x) :
    if fates n ≠ none ∨ !(row.update input).storable then
      ∃ e y, Async.eval (failing fates) (await (.updateServer id input)) x = (.error e, y) ∧
        AtCall id row (n + 1) y
    else ∃ a y, Async.eval (failing fates) (await (.updateServer id input)) x = (.ok a, y) := by
  simp only [await, Async.eval_await]
  cases hn : fates n with
  | some e =>
    obtain ⟨y, hy, hat⟩ := hx.failed hn
    rw [if_pos (.inl nofun)]
    exact ⟨e, y, hy, hat⟩
  | none =>
    have h := hx.updateServer input hn
    split_ifs at h with hfits
    · obtain ⟨y, hy⟩ := h
      rw [if_neg (by simp [hfits])]
      exact ⟨_, y, hy⟩
    · rw [if_pos (by simp [hfits])]
      exact h

/-- The variables are deleted whether or not the new ones can be written. -/
theorem eval_replaceEnvVariables (vars : List EnvVariable) (hx : AtCall id row 1 x)
    (hdelete : fates 1 = none) :
    (CreateFails row vars fates → ∃ e y, Async.eval (failing fates)
        (PrismaServerRepository.replaceEnvVariables id vars) x = (.error e, y) ∧
      AtCall id { row with envVariables := [] } 3 y) ∧
    (¬CreateFails row vars fates → ∃ y, Async.eval (failing fates)
        (PrismaServerRepository.replaceEnvVariables id vars) x = (.ok (), y) ∧
      AtCall id { row with envVariables := vars } (if vars = [] then 2 else 3) y) := by
  obtain ⟨y, hy, hat⟩ := hx.deleteEnvVariables hdelete
  simp only [PrismaServerRepository.replaceEnvVariables, Async.eval_bind, await,
    Async.eval_await, hy]
  cases vars with
  | nil => exact ⟨fun h => absurd rfl h.1, fun _ => ⟨y, rfl, hat⟩⟩
  | cons v vars =>
    simp only [List.isEmpty_cons, Bool.not_false, if_true, Async.eval_await]
    cases hn : fates 2 with
    | some e =>
      obtain ⟨z, hz, hat'⟩ := hat.failed hn
      refine ⟨fun _ => ⟨e, z, hz, hat'⟩, fun h => absurd ⟨nofun, .inl ?_⟩ h⟩
      rw [hn]
      nofun
    | none =>
      have h := hat.createEnvVariables (v :: vars) hn
      split_ifs at h with hfits
      · exact ⟨fun hfails => by simp [CreateFails, hn, hfits] at hfails, fun _ => h⟩
      · exact ⟨fun _ => h, fun hfails => absurd ⟨nofun, .inr (by simp [hfits])⟩ hfails⟩

/-- If the run is rejected, the row is as it was. -/
def ChangesNothing (id : String) (row : Server) {α : Type} (x : Except Error α × (Nat × State)) :
    Prop :=
  ∀ e, x.1 = .error e → Unchanged id row x.2.2

theorem AtCall.unchanged_iff (hx : AtCall id { row with envVariables := vars } n x) :
    Unchanged id row x.2 ↔ ∀ v, v ∈ vars ↔ v ∈ row.envVariables := by
  constructor
  · rintro ⟨row', hrow', -, hvars⟩
    obtain rfl := Option.some.inj (hx.found.symm.trans hrow')
    exact hvars
  · exact fun h => ⟨_, hx.found, rfl, h⟩

theorem AtCall.unchanged (hx : AtCall id row n x) : Unchanged id row x.2 :=
  ⟨row, hx.found, rfl, fun _ => .rfl⟩

theorem changesNothing_error_iff {α : Type} {e : Error} :
    ChangesNothing id row ((.error e, x) : Except Error α × (Nat × State)) ↔
      Unchanged id row x.2 :=
  ⟨fun h => h e rfl, fun h _ _ => h⟩

theorem changesNothing_ok {α : Type} {a : α} :
    ChangesNothing id row ((.ok a, x) : Except Error α × (Nat × State)) := nofun

/-- With the variables written, the last query decides. -/
theorem changesNothing_lastQuery (vars : List EnvVariable)
    (hx : AtCall id { row with envVariables := vars } n x) :
    ChangesNothing id row (Async.eval (failing fates) (await (.updateServer id input)) x) ↔
      (fates n ≠ none ∨ !({ row with envVariables := vars }.update input).storable →
        ∀ v, v ∈ vars ↔ v ∈ row.envVariables) := by
  have h := eval_lastQuery fates input hx
  split_ifs at h with hfails
  · obtain ⟨e, y, hy, hat⟩ := h
    rw [hy, changesNothing_error_iff, hat.unchanged_iff]
    exact ⟨fun hvars _ => hvars, fun hvars => hvars hfails⟩
  · obtain ⟨a, y, hy⟩ := h
    rw [hy]
    exact ⟨fun _ h => absurd h hfails, fun _ => changesNothing_ok⟩

/-- From the deletion on. -/
theorem changesNothing_replacing (vars : List EnvVariable) (hx : AtCall id row 1 x)
    (hdelete : fates 1 = none) :
    ChangesNothing id row (Async.eval (failing fates) (do
      PrismaServerRepository.replaceEnvVariables id vars
      await (.updateServer id input)) x) ↔
    (CreateFails row vars fates → row.envVariables = []) ∧
      (¬CreateFails row vars fates → ColumnsFail row vars input fates →
        ∀ v, v ∈ vars ↔ v ∈ row.envVariables) := by
  obtain ⟨hfails, hdone⟩ := eval_replaceEnvVariables vars hx hdelete
  rw [Async.eval_bind]
  by_cases hcreate : CreateFails row vars fates
  · obtain ⟨e, y, hy, hat⟩ := hfails hcreate
    rw [hy]
    refine changesNothing_error_iff.trans (hat.unchanged_iff.trans ?_)
    simp only [hcreate, true_imp_iff, not_true, false_imp_iff, and_true, List.not_mem_nil,
      false_iff]
    exact List.eq_nil_iff_forall_not_mem.symm
  · obtain ⟨y, hy, hat⟩ := hdone hcreate
    rw [hy]
    refine (changesNothing_lastQuery vars hat).trans ?_
    simp only [hcreate, false_imp_iff, not_false_iff, true_imp_iff, true_and, ColumnsFail]

theorem changesNothing_update (hx : AtCall id row 0 x) :
    ChangesNothing id row (Async.eval (failing fates) (PrismaServerRepository.update id input) x) ↔
      SparesVariables row input fates := by
  simp only [PrismaServerRepository.update, Async.eval_bind, await, Async.eval_await]
  cases hfind : fates 0 with
  | some e =>
    obtain ⟨y, hy, hat⟩ := hx.failed (c := .findServer id) hfind
    rw [hy, changesNothing_error_iff]
    exact ⟨fun _ _ _ h => absurd (hfind.symm.trans h) nofun, fun _ => hat.unchanged⟩
  | none =>
    obtain ⟨y, hy, hat⟩ := hx.answered (c := .findServer id) hfind hx.found
    rw [hy]
    simp only [handle, hx.found]
    cases henv : input.envVariables with
    | none =>
      refine (changesNothing_lastQuery row.envVariables hat).trans ?_
      exact ⟨fun _ _ h => absurd (henv.symm.trans h) nofun, fun _ _ _ => .rfl⟩
    | some vars =>
      cases hdelete : fates 1 with
      | some e =>
        obtain ⟨z, hz, hat'⟩ := hat.failed (c := .deleteEnvVariables id) hdelete
        simp only [PrismaServerRepository.replaceEnvVariables, Async.eval_bind, await,
          Async.eval_await, hz]
        rw [changesNothing_error_iff]
        exact ⟨fun _ _ _ _ h => absurd (hdelete.symm.trans h) nofun, fun _ => hat'.unchanged⟩
      | none =>
        refine (changesNothing_replacing vars hat hdelete).trans ?_
        exact ⟨fun h vars' henv' _ _ => Option.some.inj (henv.symm.trans henv') ▸ h,
          fun h => h vars henv hfind hdelete⟩

/-- What the handlers of an event throw is logged. -/
theorem eval_publish (handler : Task Unit) (x : Nat × State) :
    Async.eval (failing fates) (publish handler) x =
      (.ok (), (Async.eval (failing fates) handler x).2) := by
  simp only [publish, Async.eval_bind, Async.eval_attempt, Async.eval_pure]

theorem changesNothing_updateServer (o : OperatorResourceSync) :
    ChangesNothing id row (Async.eval (failing fates) (o.updateServer id input) x) ↔
      ChangesNothing id row
        (Async.eval (failing fates) (PrismaServerRepository.update id input) x) := by
  simp only [OperatorResourceSync.updateServer, Async.eval_bind, eval_publish, Async.eval_pure]
  cases hupdate : Async.eval (failing fates) (PrismaServerRepository.update id input) x with
  | mk r y =>
    cases r with
    | ok a => exact iff_of_true changesNothing_ok changesNothing_ok
    | error e => exact .rfl

/-- A rejected update of a server leaves the row and its set of environment variables as they
were if and only if the failure spares the variables. -/
theorem updateServer_changes_nothing_iff (o : OperatorResourceSync) {s : State}
    (hrow : s.db.findServer id = some row) :
    ChangesNothing id row (Async.eval (failing fates) (o.updateServer id input) (0, s)) ↔
      SparesVariables row input fates :=
  (changesNothing_updateServer o).trans (changesNothing_update ⟨rfl, hrow⟩)

end Update

/-- A server with one environment variable. -/
def survivalServer : Server := .ofInput
  { id := "survival", listenPort := 25565, type := .stateful
    envVariables := some [⟨"VIEW_DISTANCE", "12"⟩] } "token"

def survivalState : State where
  db := Database.empty.insertServer survivalServer rfl
  cluster := .empty
  syncing := false

/-- An update that repeats a key. -/
def repeatedKey : UpdateServerInput :=
  { envVariables := some [⟨"VIEW_DISTANCE", "16"⟩, ⟨"VIEW_DISTANCE", "20"⟩] }

/-- The deletion of the variables fails. -/
theorem updateServer_changes_nothing_iff_deletion :
    ChangesNothing "survival" survivalServer (Async.eval
      (failing fun n => if n = 1 then some { message := "connection lost" } else none)
      (({} : OperatorResourceSync).updateServer "survival" repeatedKey) (0, survivalState)) :=
  (updateServer_changes_nothing_iff {} rfl).mpr fun _ _ _ hdelete => by cases hdelete

/-- No query fails, the schema admits the input, and the server has lost its variables although
the update was rejected. -/
theorem rejected_update_loses_variables :
    survivalServer.storable = true ∧ repeatedKey.accepted = true ∧
      ¬ChangesNothing "survival" survivalServer (Async.eval (failing fun _ => none)
        (({} : OperatorResourceSync).updateServer "survival" repeatedKey) (0, survivalState)) := by
  refine ⟨by decide, by decide, fun h => ?_⟩
  obtain ⟨row, hrow, -, hvars⟩ := h (.ofConstraint "constraint violation") rfl
  have hempty : row = { survivalServer with envVariables := [] } :=
    Option.some.inj (hrow.symm.trans (by rfl))
  rw [hempty] at hvars
  exact absurd ((hvars ⟨"VIEW_DISTANCE", "12"⟩).mpr (by decide)) List.not_mem_nil

end Minikura.Backend
