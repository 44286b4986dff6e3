import Mathlib.Logic.Relation
import Minikura.Backend.Platform

/-!
# Users and the last active administrator

The three requests that can take an active administrator away each count the others
in the transaction that writes. Suspensions end by themselves, so time is part of the
state; what the clock has shown to a transaction may be older than its commit.

## Main definitions

* `isUserSuspended`, `activeAdminFilter` — the check on access and the query's filter.
* `UserCall.run` — the requests of `UserService`.
* `UserStep` — the requests one after another, and the passing of time.

## Main result

* `userService_keeps_active_admin` — the last active administrator stays.
-/

namespace Minikura.Backend

/-- Milliseconds since the epoch. -/
abbrev Time := Int

/-! ## Rows -/

structure User where
  id : String
  name : String
  role : String
  isSuspended : Bool
  suspendedUntil : Option Time
  banned : Bool
deriving Repr, DecidableEq

def isUserSuspended (user : User) (now : Time) : Bool :=
  if !user.isSuspended then false
  else if user.suspendedUntil.any (· ≤ now) then false
  else true

/-- An administrator who can sign in. -/
def User.activeAdmin (user : User) (now : Time) : Bool :=
  user.role == "admin" && !user.banned && !isUserSuspended user now

/-- The fields of an update that are not `undefined`. -/
structure UserData where
  name : Option String := none
  role : Option String := none
  isSuspended : Option Bool := none
  suspendedUntil : Option (Option Time) := none

def User.set (user : User) (data : UserData) : User :=
  { user with
    name := data.name.getD user.name
    role := data.role.getD user.role
    isSuspended := data.isSuspended.getD user.isSuspended
    suspendedUntil := data.suspendedUntil.getD user.suspendedUntil }

structure UserTable where
  users : List User
  keys : (users.map (·.id)).Nodup

namespace UserTable

variable {table : UserTable}

def find (table : UserTable) (id : String) : Option User := table.users.find? (·.id = id)

def set (table : UserTable) (id : String) (data : UserData) : UserTable where
  users := table.users.map fun u => if u.id = id then u.set data else u
  keys := by
    have h : (table.users.map fun u => if u.id = id then u.set data else u).map (·.id) =
        table.users.map (·.id) := by
      rw [List.map_map]
      refine List.map_congr_left fun u _ => ?_
      by_cases hu : u.id = id <;> simp [hu, User.set]
    rw [h]
    exact table.keys

def erase (table : UserTable) (id : String) : UserTable where
  users := table.users.filter (·.id ≠ id)
  keys := table.keys.sublist (List.filter_sublist.map _)

def HasActiveAdmin (table : UserTable) (now : Time) : Prop :=
  ∃ u ∈ table.users, u.activeAdmin now

instance (table : UserTable) (now : Time) : Decidable (table.HasActiveAdmin now) :=
  inferInstanceAs (Decidable (∃ u ∈ table.users, u.activeAdmin now = true))

theorem eq_of_find {u v : User} (hv : table.find v.id = some u) (hu : v ∈ table.users) :
    u = v := by
  have hid : u.id = v.id := by simpa using List.find?_some hv
  exact List.inj_on_of_nodup_map table.keys (List.mem_of_find?_eq_some hv) hu hid

theorem mem_set_of_ne {u : User} {id : String} {data : UserData} (hu : u ∈ table.users)
    (h : u.id ≠ id) : u ∈ (table.set id data).users :=
  List.mem_map.mpr ⟨u, hu, if_neg h⟩

theorem mem_set_self {u : User} {data : UserData} (hu : u ∈ table.users) :
    u.set data ∈ (table.set u.id data).users :=
  List.mem_map.mpr ⟨u, hu, if_pos rfl⟩

theorem mem_erase_of_ne {u : User} {id : String} (hu : u ∈ table.users) (h : u.id ≠ id) :
    u ∈ (table.erase id).users :=
  List.mem_filter.mpr ⟨hu, by simpa using h⟩

end UserTable

/-! ## Transactions -/

/-- The body of a transaction; what it has written is lost when it throws. -/
abbrev Tx := StateT UserTable (Except Error)

namespace Tx

def findUnique (id : String) : Tx (Option User) := do return (← get).find id

def count (p : User → Bool) : Tx Nat := do return (← get).users.countP p

def update (id : String) (data : UserData) : Tx User := do
  match (← get).find id with
  | none => throw (.ofConstraint "record not found")
  | some user =>
    modify (·.set id data)
    return user.set data

def delete (id : String) : Tx Unit := do
  match (← get).find id with
  | none => throw (.ofConstraint "record not found")
  | some _ => modify (·.erase id)

theorem bind_apply {α β : Type} (tx : Tx α) (f : α → Tx β) (table : UserTable) :
    (tx >>= f) table = match tx table with
      | .ok (a, table') => f a table'
      | .error e => .error e := by
  change Except.bind _ _ = _
  rcases tx table with _ | ⟨_, _⟩ <;> rfl

theorem get_apply (table : UserTable) : (get : Tx UserTable) table = .ok (table, table) := rfl

theorem findUnique_apply (id : String) (table : UserTable) :
    findUnique id table = .ok (table.find id, table) := rfl

theorem count_apply (p : User → Bool) (table : UserTable) :
    count p table = .ok (table.users.countP p, table) := rfl

end Tx

/-- `prisma.$transaction` at the isolation level `Serializable`: the whole body at one
point of the serial order, unless the database turns the commit down. -/
def transaction {α : Type} (tx : Tx α) (commit : Except Error Unit) (table : UserTable) :
    Except Error α × UserTable :=
  match tx table, commit with
  | .ok (a, table'), .ok () => (.ok a, table')
  | .ok _, .error e => (.error e, table)
  | .error e, _ => (.error e, table)

theorem transaction_error {α : Type} {tx : Tx α} {commit : Except Error Unit}
    {table : UserTable} {e : Error} (h : (transaction tx commit table).1 = .error e) :
    (transaction tx commit table).2 = table := by
  unfold transaction at h ⊢
  split at h
  · cases h
  · rfl
  · rfl

/-! ## Repository -/

inductive UserRole where
  | admin
  | user
deriving Repr, DecidableEq

def UserRole.name : UserRole → String
  | .admin => "admin"
  | .user => "user"

structure UpdateUserInput where
  name : Option String := none
  role : Option UserRole := none

structure UpdateSuspensionInput where
  isSuspended : Bool
  suspendedUntil : Option (Option Time) := none

def UpdateUserInput.data (i : UpdateUserInput) : UserData :=
  { name := i.name, role := i.role.map UserRole.name }

def UpdateSuspensionInput.data (i : UpdateSuspensionInput) : UserData :=
  { isSuspended := some i.isSuspended, suspendedUntil := i.suspendedUntil }

/-- `suspensionIsActive`, in the service and again in the repository. -/
def UpdateSuspensionInput.suspensionIsActive (i : UpdateSuspensionInput) (now : Time) : Bool :=
  i.isSuspended && i.suspendedUntil.join.all (now < ·)

/-- The `where` of the count; a comparison with a null column does not hold. -/
def activeAdminFilter (excludedId : String) (now : Time) (user : User) : Bool :=
  user.id ≠ excludedId && user.role == "admin" && user.banned == false &&
    (user.isSuspended == false ||
      user.isSuspended == true && user.suspendedUntil.any (· ≤ now))

namespace PrismaUserRepository

/-- Write to a user, unless that is risky and no other administrator is active. -/
def withAdminSafety {α : Type} (id : String) (risky : User → Bool) (now : Time)
    (message : String) (write : Tx α) : Tx α := do
  match ← Tx.findUnique id with
  | none => throw (notFoundError "User" id)
  | some target =>
    if risky target && (← Tx.count (activeAdminFilter id now)) == 0 then
      throw (businessRuleError message)
    write

def updateWithAdminSafety (id : String) (input : UpdateUserInput) (now : Time) : Tx User :=
  withAdminSafety id (fun target => target.role == "admin" && input.role == some .user) now
    "Cannot demote the last active administrator" (Tx.update id input.data)

/-- `checked` is what the clock shows before the target is compared, `now` in the filter. -/
def updateSuspensionWithAdminSafety (id : String) (input : UpdateSuspensionInput)
    (checked now : Time) : Tx User :=
  withAdminSafety id
    (fun target => target.role == "admin" && input.suspensionIsActive checked) now
    "Cannot suspend the last active administrator" (Tx.update id input.data)

def deleteWithAdminSafety (id : String) (now : Time) : Tx Unit :=
  withAdminSafety id (fun target => target.role == "admin") now
    "Cannot delete the last active administrator" (Tx.delete id)

end PrismaUserRepository

/-! ## Service -/

/-- What `new Date()` gives in the service, at the check of the suspension in the
repository and in the filter; and how the commit ends. -/
structure Circumstances where
  service : Time
  repository : Time
  filter : Time
  commit : Except Error Unit

namespace UserService

open PrismaUserRepository

variable (requestingUserId id : String) (env : Circumstances) (table : UserTable)

def updateUser (input : UpdateUserInput) : Except Error User × UserTable :=
  if requestingUserId = id && input.role.any (· ≠ .admin) then
    (.error (businessRuleError "Cannot demote yourself"), table)
  else transaction (updateWithAdminSafety id input env.filter) env.commit table

/-- The event published after the commit reaches handlers that only log, and what a
handler throws stays on the event bus. -/
def updateSuspension (input : UpdateSuspensionInput) : Except Error User × UserTable :=
  if requestingUserId = id && input.suspensionIsActive env.service then
    (.error (businessRuleError "Cannot suspend yourself"), table)
  else
    transaction (updateSuspensionWithAdminSafety id input env.repository env.filter) env.commit
      table

def deleteUser : Except Error Unit × UserTable :=
  if requestingUserId = id then
    (.error (businessRuleError "Cannot delete yourself"), table)
  else transaction (deleteWithAdminSafety id env.filter) env.commit table

end UserService

inductive UserCall where
  | updateUser (requestingUserId id : String) (input : UpdateUserInput)
  | updateSuspension (requestingUserId id : String) (input : UpdateSuspensionInput)
  | deleteUser (requestingUserId id : String)

/-- Serve a request; the user a successful one answers with is dropped. -/
def UserCall.run (env : Circumstances) (table : UserTable) :
    UserCall → Except Error Unit × UserTable
  | .updateUser requestingUserId id input =>
    let (r, table') := UserService.updateUser requestingUserId id env table input
    (r.map fun _ => (), table')
  | .updateSuspension requestingUserId id input =>
    let (r, table') := UserService.updateSuspension requestingUserId id env table input
    (r.map fun _ => (), table')
  | .deleteUser requestingUserId id => UserService.deleteUser requestingUserId id env table

/-- Nothing the clock has shown lies after `now`. -/
def Circumstances.upTo (env : Circumstances) (now : Time) : Prop :=
  env.service ≤ now ∧ env.repository ≤ now ∧ env.filter ≤ now

/-- Time passes, or a request is served. -/
inductive UserStep : UserTable × Time → UserTable × Time → Prop where
  | tick {table now later} : now ≤ later → UserStep (table, now) (table, later)
  | serve {table now} (call : UserCall) (env : Circumstances) :
    env.upTo now → UserStep (table, now) ((call.run env table).2, now)

abbrev UserSteps := Relation.ReflTransGen UserStep

/-! ## The filter and the check -/

theorem isUserSuspended_mono {user : User} {now later : Time} (h : now ≤ later)
    (hs : isUserSuspended user later) : isUserSuspended user now := by
  unfold isUserSuspended at hs ⊢
  cases hu : user.suspendedUntil with
  | none => simpa [hu] using hs
  | some t =>
    simp only [hu, Option.any_some, decide_eq_true_eq] at hs ⊢
    grind

/-- Whoever is active stays so, as long as the row does not change. -/
theorem User.activeAdmin_mono {user : User} {now later : Time} (h : now ≤ later)
    (ha : user.activeAdmin now) : user.activeAdmin later := by
  simp only [User.activeAdmin, Bool.and_eq_true, Bool.not_eq_true'] at ha ⊢
  refine ⟨ha.1, Bool.eq_false_iff.mpr fun hs => ?_⟩
  exact Bool.eq_false_iff.mp ha.2 (isUserSuspended_mono h hs)

/-- The filter of the count and the check on access agree, also at the boundary. -/
theorem activeAdminFilter_iff {excludedId : String} {now : Time} {user : User} :
    activeAdminFilter excludedId now user ↔ user.id ≠ excludedId ∧ user.activeAdmin now := by
  simp only [activeAdminFilter, User.activeAdmin, isUserSuspended]
  cases user.isSuspended <;> cases user.suspendedUntil <;> grind

theorem UserTable.HasActiveAdmin.mono {table : UserTable} {now later : Time} (h : now ≤ later)
    (ha : table.HasActiveAdmin now) : table.HasActiveAdmin later := by
  obtain ⟨u, hu, ha⟩ := ha
  exact ⟨u, hu, User.activeAdmin_mono h ha⟩

/-! ## One request -/

section Request

open PrismaUserRepository

variable {α : Type} {table table' : UserTable} {id : String} {now later : Time} {a : α}

theorem withAdminSafety_run (risky : User → Bool) (message : String) (write : Tx α) :
    withAdminSafety id risky now message write table =
      match table.find id with
      | none => .error (notFoundError "User" id)
      | some target =>
        if risky target && table.users.countP (activeAdminFilter id now) == 0 then
          .error (businessRuleError message)
        else write table := by
  simp only [withAdminSafety, Tx.bind_apply, Tx.findUnique_apply]
  cases table.find id with
  | none => rfl
  | some target =>
    simp only [Tx.bind_apply, Tx.count_apply]
    split_ifs <;> rfl

/-- A write goes through only when it is not risky or the filter finds somebody. -/
theorem withAdminSafety_ok {risky : User → Bool} {message : String} {write : Tx α}
    (h : withAdminSafety id risky now message write table = .ok (a, table')) :
    ∃ target, table.find id = some target ∧
      (risky target → ∃ u ∈ table.users, activeAdminFilter id now u) ∧
      write table = .ok (a, table') := by
  rw [withAdminSafety_run] at h
  cases hf : table.find id with
  | none =>
    rw [hf] at h
    cases h
  | some target =>
    simp only [hf] at h
    split_ifs at h with hguard
    refine ⟨target, rfl, fun hr => ?_, h⟩
    rw [hr, Bool.true_and, beq_iff_eq, List.countP_eq_zero] at hguard
    push Not at hguard
    exact hguard

/-- A guarded write keeps an active administrator: if it is not the target itself, then
the target was not at risk or the filter has found another one. -/
theorem hasActiveAdmin_of_guarded {risky : User → Bool} {message : String} {write : Tx α}
    (h : withAdminSafety id risky now message write table = .ok (a, table'))
    (hnow : now ≤ later) (others : ∀ u ∈ table.users, u.id ≠ id → u ∈ table'.users)
    (safe : ∀ u ∈ table.users, u.id = id → u.activeAdmin later → ¬risky u →
      table'.HasActiveAdmin later)
    (hadmin : table.HasActiveAdmin later) : table'.HasActiveAdmin later := by
  obtain ⟨target, hfind, hrisky, -⟩ := withAdminSafety_ok h
  obtain ⟨u, hu, ha⟩ := hadmin
  by_cases hid : u.id = id
  · subst hid
    obtain rfl := UserTable.eq_of_find hfind hu
    by_cases hr : risky target
    · obtain ⟨v, hv, hfilter⟩ := hrisky hr
      obtain ⟨hne, hactive⟩ := activeAdminFilter_iff.mp hfilter
      exact ⟨v, others v hv hne, User.activeAdmin_mono hnow hactive⟩
    · exact safe target hu rfl ha hr
  · exact ⟨u, others u hu hid, ha⟩

theorem update_ok {data : UserData} {user : User}
    (h : Tx.update id data table = .ok (user, table')) : table' = table.set id data := by
  simp only [Tx.update, Tx.bind_apply, Tx.get_apply] at h
  cases hf : table.find id with
  | none =>
    rw [hf] at h
    cases h
  | some target =>
    rw [hf] at h
    exact (congrArg Prod.snd (Except.ok.inj h)).symm

theorem delete_ok {u : Unit} (h : Tx.delete id table = .ok (u, table')) :
    table' = table.erase id := by
  simp only [Tx.delete, Tx.bind_apply, Tx.get_apply] at h
  cases hf : table.find id with
  | none =>
    rw [hf] at h
    cases h
  | some target =>
    rw [hf] at h
    exact (congrArg Prod.snd (Except.ok.inj h)).symm

/-- So does a guarded update that leaves a target that is not at risk an active one. -/
theorem hasActiveAdmin_of_update {risky : User → Bool} {message : String} {data : UserData}
    {user : User}
    (h : withAdminSafety id risky now message (Tx.update id data) table = .ok (user, table'))
    (hnow : now ≤ later)
    (safe : ∀ u : User, u.activeAdmin later → ¬risky u → (u.set data).activeAdmin later)
    (hadmin : table.HasActiveAdmin later) : table'.HasActiveAdmin later := by
  obtain ⟨_, -, -, hw⟩ := withAdminSafety_ok h
  have htable := update_ok hw
  subst htable
  refine hasActiveAdmin_of_guarded h hnow (fun u hu => UserTable.mem_set_of_ne hu) ?_ hadmin
  intro u hu hid ha hr
  subst hid
  exact ⟨u.set data, UserTable.mem_set_self hu, safe u ha hr⟩

theorem updateWithAdminSafety_keeps {input : UpdateUserInput} {user : User}
    (h : updateWithAdminSafety id input now table = .ok (user, table')) (hnow : now ≤ later)
    (hadmin : table.HasActiveAdmin later) : table'.HasActiveAdmin later := by
  refine hasActiveAdmin_of_update h hnow (fun u ha hr => ?_) hadmin
  -- the target is not demoted, and nothing else about it matters
  simp only [User.activeAdmin, Bool.and_eq_true] at ha ⊢
  refine ⟨⟨?_, ha.1.2⟩, ha.2⟩
  cases hrole : input.role with
  | none => simpa [User.set, UpdateUserInput.data, hrole] using ha.1.1
  | some role =>
    cases role with
    | admin => simp [User.set, UpdateUserInput.data, hrole, UserRole.name]
    | user => simp [hrole, ha.1.1] at hr

theorem updateSuspensionWithAdminSafety_keeps {input : UpdateSuspensionInput} {user : User}
    {checked : Time}
    (h : updateSuspensionWithAdminSafety id input checked now table = .ok (user, table'))
    (hchecked : checked ≤ later) (hnow : now ≤ later)
    (hadmin : table.HasActiveAdmin later) : table'.HasActiveAdmin later := by
  refine hasActiveAdmin_of_update h hnow (fun u ha hr => ?_) hadmin
  -- the suspension is over already, or it is none
  simp only [User.activeAdmin, Bool.and_eq_true] at ha ⊢
  refine ⟨ha.1, ?_⟩
  simp only [ha.1.1, Bool.true_and, UpdateSuspensionInput.suspensionIsActive] at hr
  simp only [isUserSuspended, User.set, UpdateSuspensionInput.data, Option.getD_some]
  by_cases hs : input.isSuspended = true
  · obtain ⟨t, ht⟩ : ∃ t, input.suspendedUntil = some (some t) := by
      cases hu : input.suspendedUntil with
      | none => simp [hs, hu] at hr
      | some t =>
        cases t with
        | none => simp [hs, hu] at hr
        | some t => exact ⟨t, rfl⟩
    simp only [hs, ht, Option.join_some, Option.all_some, Bool.true_and, decide_eq_true_eq]
      at hr
    have hpast : t ≤ later := Int.le_trans (Int.not_lt.mp hr) hchecked
    simp [ht, hpast]
  · simp [hs]

theorem deleteWithAdminSafety_keeps {u : Unit}
    (h : deleteWithAdminSafety id now table = .ok (u, table')) (hnow : now ≤ later)
    (hadmin : table.HasActiveAdmin later) : table'.HasActiveAdmin later := by
  obtain ⟨_, -, -, hw⟩ := withAdminSafety_ok h
  have htable := delete_ok hw
  subst htable
  refine hasActiveAdmin_of_guarded h hnow (fun u hu => UserTable.mem_erase_of_ne hu) ?_ hadmin
  intro u hu hid ha hr
  simp only [User.activeAdmin, Bool.and_eq_true] at ha
  exact absurd ha.1.1 hr

theorem transaction_keeps {tx : Tx α} {commit : Except Error Unit}
    (h : ∀ a table', tx table = .ok (a, table') → table'.HasActiveAdmin later)
    (hadmin : table.HasActiveAdmin later) :
    (transaction tx commit table).2.HasActiveAdmin later := by
  unfold transaction
  split
  · exact h _ _ ‹_›
  · exact hadmin
  · exact hadmin

theorem UserCall.run_keeps (call : UserCall) {env : Circumstances} (henv : env.upTo now)
    (hadmin : table.HasActiveAdmin now) : (call.run env table).2.HasActiveAdmin now := by
  obtain ⟨-, hrepository, hfilter⟩ := henv
  cases call with
  | updateUser requestingUserId id input =>
    simp only [UserCall.run, UserService.updateUser]
    split_ifs
    · exact hadmin
    · exact transaction_keeps (fun _ _ h => updateWithAdminSafety_keeps h hfilter hadmin) hadmin
  | updateSuspension requestingUserId id input =>
    simp only [UserCall.run, UserService.updateSuspension]
    split_ifs
    · exact hadmin
    · exact transaction_keeps (fun _ _ h =>
        updateSuspensionWithAdminSafety_keeps h hrepository hfilter hadmin) hadmin
  | deleteUser requestingUserId id =>
    simp only [UserCall.run, UserService.deleteUser]
    split_ifs
    · exact hadmin
    · exact transaction_keeps (fun _ _ h => deleteWithAdminSafety_keeps h hfilter hadmin) hadmin

/-- A request that is rejected, by a check or by the database, has changed nothing. -/
theorem UserCall.run_rejected {call : UserCall} {env : Circumstances} {e : Error}
    (h : (call.run env table).1 = .error e) : (call.run env table).2 = table := by
  have rejected : ∀ {β : Type} {r : Except Error β × UserTable},
      (∀ e, r.1 = .error e → r.2 = table) → (r.1.map fun _ => ()) = .error e →
        r.2 = table := by
    intro β r hr he
    cases hr1 : r.1 with
    | ok b =>
      rw [hr1] at he
      cases he
    | error e => exact hr e hr1
  cases call with
  | updateUser requestingUserId id input =>
    refine rejected (r := UserService.updateUser requestingUserId id env table input) ?_ h
    intro e he
    unfold UserService.updateUser at he ⊢
    split_ifs at he ⊢
    · rfl
    · exact transaction_error he
  | updateSuspension requestingUserId id input =>
    refine rejected (r := UserService.updateSuspension requestingUserId id env table input) ?_ h
    intro e he
    unfold UserService.updateSuspension at he ⊢
    split_ifs at he ⊢
    · rfl
    · exact transaction_error he
  | deleteUser requestingUserId id =>
    simp only [UserCall.run, UserService.deleteUser] at h ⊢
    split_ifs at h ⊢
    · rfl
    · exact transaction_error h

end Request

/-! ## Runs -/

theorem UserStep.keeps {x y : UserTable × Time} (h : UserStep x y)
    (hadmin : x.1.HasActiveAdmin x.2) : y.1.HasActiveAdmin y.2 := by
  cases h with
  | tick h => exact hadmin.mono h
  | serve call env henv => exact call.run_keeps henv hadmin

theorem UserSteps.keeps {x y : UserTable × Time} (h : UserSteps x y)
    (hadmin : x.1.HasActiveAdmin x.2) : y.1.HasActiveAdmin y.2 := by
  induction h with
  | refl => exact hadmin
  | tail _ hstep ih => exact hstep.keeps ih

/-- Where somebody is an active administrator, somebody is after every run of requests
and from then on; and a request that is rejected leaves the table as it is. -/
theorem userService_keeps_active_admin {x y : UserTable × Time}
    (hadmin : x.1.HasActiveAdmin x.2) (run : UserSteps x y) :
    (∀ later, y.2 ≤ later → y.1.HasActiveAdmin later) ∧
      ∀ (call : UserCall) (env : Circumstances) (e : Error),
        (call.run env y.1).1 = .error e → (call.run env y.1).2 = y.1 :=
  ⟨fun _ hlater => (UserSteps.keeps run hadmin).mono hlater,
    fun _ _ _ => UserCall.run_rejected⟩

/-- One administrator is suspended until time 10, the other is not. -/
def twoAdmins : UserTable where
  users := [
    { id := "a", name := "A", role := "admin", isSuspended := false, suspendedUntil := none
      banned := false },
    { id := "b", name := "B", role := "admin", isSuspended := true, suspendedUntil := some 10
      banned := false }]
  keys := by decide

def atTen : Circumstances := ⟨10, 10, 10, .ok ()⟩

/-- The suspended administrator is active again when it demotes the other. -/
def demoteA : UserCall := .updateUser "b" "a" { role := some .user }

theorem userService_keeps_active_admin_demoted :
    (∀ later, 10 ≤ later → (demoteA.run atTen twoAdmins).2.HasActiveAdmin later) ∧
      ∀ (call : UserCall) (env : Circumstances) (e : Error),
        (call.run env (demoteA.run atTen twoAdmins).2).1 = .error e →
          (call.run env (demoteA.run atTen twoAdmins).2).2 = (demoteA.run atTen twoAdmins).2 :=
  userService_keeps_active_admin (x := (twoAdmins, 10))
    (y := ((demoteA.run atTen twoAdmins).2, 10)) (by decide)
    (.single (.serve demoteA atTen ⟨by decide, by decide, by decide⟩))

end Minikura.Backend
