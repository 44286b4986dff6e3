import Mathlib.Algebra.GroupWithZero.Nat
import Minikura.Concurrency.Async
import Minikura.Concurrency.Machine

/-!
# First-run setup

Any number of `POST /bootstrap/setup` requests at once. Each runs its callback inside a
transaction, which may expire at any time: it is rolled back, the advisory lock is free
again, and the callback goes on until it next uses the transaction. The user is created
on another connection, so a creation that is under way then is not undone.

## Main definitions

* `setup`, `respond` — the callback of the transaction and the responses of the route.
* `System.next` — the steps of the requests, of their transactions and of the creations.

## Main results

* `one_user` — at most one user, if no request counts while an abandoned creation pends.
* `one_user_of_no_expiry` — so it is if no transaction expires during its creation.
-/

namespace Minikura.Backend.Bootstrap
open Concurrency

/-! ## The route -/

structure BootstrapInput where
  name : String
  email : String
  password : String
deriving Repr, DecidableEq

/-- `s.length` -/
def utf16Length (s : String) : Nat :=
  (s.toList.map fun c => if c.toNat < 0x10000 then 1 else 2).sum

/-- The first issue that `bootstrapSchema.safeParse` finds in a body of three texts. -/
def bootstrapSchema (isEmail : String → Bool) (body : BootstrapInput) : Option String :=
  if utf16Length body.name < 1 then some "name: Name is required"
  else if !isEmail body.email then some "email: Valid email is required"
  else if utf16Length body.password < 8 then
    some "password: Password must be at least 8 characters"
  else none

inductive Query where
  /-- `SELECT pg_advisory_xact_lock(673886947)`, in the transaction -/
  | lock
  /-- `tx.user.count()` -/
  | count
  /-- `auth.api.createUser`, on its own connection and with the role `admin` -/
  | createUser (data : BootstrapInput)

/-- Whether the result of `createUser` holds a user. -/
structure CreateResult where
  user : Bool
deriving Repr, DecidableEq

abbrev Answer : Query → Type
  | .lock => Unit
  | .count => Nat
  | .createUser _ => CreateResult

inductive Error where
  | transactionClosed
  | createUserFailed
deriving Repr, DecidableEq

/-- The code of a callback, and how it ends. -/
abbrev Code := Prog Query (Settled Error Answer) (Except Error (Option CreateResult))

def await (c : Query) : Async Error Answer (Answer c) := Async.await c

/-- The callback of `prisma.$transaction`. -/
def setup (data : BootstrapInput) : Async Error Answer (Option CreateResult) := do
  await .lock
  if 0 < (← await .count) then return none
  else return some (← await (.createUser data))

structure Response where
  status : Nat
  message : Option String
deriving Repr, DecidableEq

def respond : Except Error (Option CreateResult) → Response
  | .ok none => ⟨400, some "Setup already completed"⟩
  | .ok (some ⟨false⟩) => ⟨500, some "Failed to create user"⟩
  | .ok (some ⟨true⟩) => ⟨200, none⟩
  | .error _ => ⟨500, some "Failed to complete setup"⟩

/-! ## Requests under way -/

structure Request where
  code : Code
  /-- The transaction has neither ended nor expired. -/
  transaction : Bool := true
  /-- What came of the creation that is under way, not yet known to the callback. -/
  outcome : Option (Except Error CreateResult) := none
  response : Option Response := none

structure System where
  /-- The emails of the users. -/
  users : List String := []
  /-- The request whose transaction holds the advisory lock. -/
  lock : Option Nat := none
  requests : List Request := []

inductive Label where
  | arrive (body : BootstrapInput)
  | lock (i : Nat)
  | count (i : Nat)
  /-- The creation takes effect, and its answer tells so or not. -/
  | insert (i : Nat) (answer : Except Error CreateResult)
  | refuse (i : Nat)
  | settle (i : Nat)
  /-- A query in a transaction that has expired is turned down. -/
  | reject (i : Nat)
  | expire (i : Nat)
  | finish (i : Nat)

namespace System

def setRequest (x : System) (i : Nat) (r : Request) : System :=
  { x with requests := x.requests.set i r }

/-- The lock of a transaction that ends is free. -/
def release (x : System) (i : Nat) : Option Nat := if x.lock = some i then none else x.lock

def next (isEmail : String → Bool) (x : System) : Label → Option System
  | .arrive body =>
    match bootstrapSchema isEmail body with
    | some message => some { x with requests := x.requests ++
        [{ code := .pure (.ok none), transaction := false, response := some ⟨400, message⟩ }] }
    | none => some { x with requests := x.requests ++ [{ code := (setup body).run }] }
  | .lock i =>
    match x.requests[i]?, x.lock with
    | some ⟨.call .lock k, true, outcome, response⟩, none =>
      some { x.setRequest i ⟨k (.ok ()), true, outcome, response⟩ with lock := some i }
    | _, _ => none
  | .count i =>
    match x.requests[i]? with
    | some ⟨.call .count k, true, outcome, response⟩ =>
      some (x.setRequest i ⟨k (.ok x.users.length), true, outcome, response⟩)
    | _ => none
  | .insert i answer =>
    match x.requests[i]? with
    | some ⟨.call (.createUser data) k, transaction, none, response⟩ =>
      -- `email` is unique
      if data.email ∈ x.users then none
      else some { x.setRequest i ⟨.call (.createUser data) k, transaction, answer, response⟩ with
        users := x.users ++ [data.email] }
    | _ => none
  | .refuse i =>
    match x.requests[i]? with
    | some ⟨.call (.createUser data) k, transaction, none, response⟩ =>
      some (x.setRequest i ⟨.call (.createUser data) k, transaction,
        some (.error .createUserFailed), response⟩)
    | _ => none
  | .settle i =>
    match x.requests[i]? with
    | some ⟨.call (.createUser _) k, transaction, some outcome, response⟩ =>
      some (x.setRequest i ⟨k outcome, transaction, none, response⟩)
    | _ => none
  | .reject i =>
    match x.requests[i]? with
    | some ⟨.call .lock k, false, outcome, response⟩ =>
      some (x.setRequest i ⟨k (.error .transactionClosed), false, outcome, response⟩)
    | some ⟨.call .count k, false, outcome, response⟩ =>
      some (x.setRequest i ⟨k (.error .transactionClosed), false, outcome, response⟩)
    | _ => none
  | .expire i =>
    match x.requests[i]? with
    | some ⟨code, true, outcome, response⟩ =>
      some { x.setRequest i ⟨code, false, outcome, response⟩ with lock := x.release i }
    | _ => none
  | .finish i =>
    match x.requests[i]? with
    | some ⟨.pure result, transaction, outcome, none⟩ =>
      -- a transaction that has expired cannot be committed
      let response := respond (if transaction then result else .error .transactionClosed)
      some { x.setRequest i ⟨.pure result, false, outcome, some response⟩ with
        lock := x.release i }
    | _ => none

end System

/-! ## Stages of the callback -/

/-- The callback after it has the lock. -/
def counting (data : BootstrapInput) : Async Error Answer (Option CreateResult) := do
  if 0 < (← await .count) then return none
  else return some (← await (.createUser data))

inductive Stage : Code → Prop where
  | start (data : BootstrapInput) : Stage (setup data).run
  | counting (data : BootstrapInput) : Stage (counting data).run
  | creating (data : BootstrapInput) (k : Settled Error Answer (.createUser data) → Code)
      (hk : ∀ r, ∃ result, k r = .pure result) : Stage (.call (.createUser data) k)
  | done (result : Except Error (Option CreateResult)) : Stage (.pure result)

/-- With the lock the count is next, without it nothing. -/
theorem stage_of_lock {k : Settled Error Answer .lock → Code} (h : Stage (.call .lock k))
    (r : Settled Error Answer .lock) :
    Stage (k r) ∧ ∀ data k', k r ≠ .call (.createUser data) k' := by
  generalize hcode : Prog.call Query.lock k = code at h
  cases h with
  | start data =>
    obtain rfl := eq_of_heq (Prog.call.inj hcode).2
    cases r with
    | ok _ => exact ⟨.counting data, nofun⟩
    | error e => exact ⟨.done (.error e), nofun⟩
  | counting data => cases hcode
  | creating data k' hk => cases hcode
  | done result => cases hcode

theorem stage_of_count {k : Settled Error Answer .count → Code} (h : Stage (.call .count k))
    (r : Settled Error Answer .count) : Stage (k r) ∧
      (r ≠ .ok 0 → ∃ result, k r = .pure result) := by
  generalize hcode : Prog.call Query.count k = code at h
  cases h with
  | start data => cases hcode
  | counting data =>
    obtain rfl := eq_of_heq (Prog.call.inj hcode).2
    cases r with
    | ok n =>
      cases n with
      | zero =>
        exact ⟨.creating data _ fun r => by cases r <;> exact ⟨_, rfl⟩, fun h => absurd rfl h⟩
      | succ n => exact ⟨.done (.ok none), fun _ => ⟨_, rfl⟩⟩
    | error e => exact ⟨.done (.error e), fun _ => ⟨_, rfl⟩⟩
  | creating data k' hk => cases hcode
  | done result => cases hcode

theorem stage_of_createUser {data : BootstrapInput}
    {k : Settled Error Answer (.createUser data) → Code}
    (h : Stage (.call (.createUser data) k)) (r : Settled Error Answer (.createUser data)) :
    ∃ result, k r = .pure result := by
  generalize hcode : Prog.call (Query.createUser data) k = code at h
  cases h with
  | start data => cases hcode
  | counting data => cases hcode
  | creating data' k' hk =>
    cases hcode
    exact hk r
  | done result => cases hcode

/-! ## The invariant -/

/-- A creation is under way that has not come to anything yet. -/
def Request.Pending (r : Request) : Prop :=
  r.outcome = none ∧ ∃ data k, r.code = .call (.createUser data) k

section Pending

variable {transaction : Bool} {outcome : Option (Except Error CreateResult)}
  {response : Option Response}

theorem not_pending_pure {result : Except Error (Option CreateResult)} :
    ¬ (⟨.pure result, transaction, outcome, response⟩ : Request).Pending := by
  rintro ⟨-, _, _, ⟨⟩⟩

theorem not_pending_lock {k : Settled Error Answer .lock → Code} (h : Stage (.call .lock k))
    (r : Settled Error Answer .lock) :
    ¬ (⟨k r, transaction, outcome, response⟩ : Request).Pending := by
  rintro ⟨-, data, k', hcode⟩
  exact (stage_of_lock h r).2 data k' hcode

/-- Only a count of zero is followed by a creation. -/
theorem not_pending_count {k : Settled Error Answer .count → Code} (h : Stage (.call .count k))
    {r : Settled Error Answer .count} (hr : r ≠ .ok 0) :
    ¬ (⟨k r, transaction, outcome, response⟩ : Request).Pending := by
  obtain ⟨result, hk⟩ := (stage_of_count h r).2 hr
  rw [hk]
  exact not_pending_pure

theorem not_pending_createUser {data : BootstrapInput}
    {k : Settled Error Answer (.createUser data) → Code}
    (h : Stage (.call (.createUser data) k)) (r : Settled Error Answer (.createUser data)) :
    ¬ (⟨k r, transaction, outcome, response⟩ : Request).Pending := by
  obtain ⟨result, hk⟩ := stage_of_createUser h r
  rw [hk]
  exact not_pending_pure

end Pending

/-- The transaction is open and the callback has been given the lock. -/
def Request.Holds (r : Request) : Prop :=
  r.transaction = true ∧ ∀ k, r.code ≠ .call .lock k

structure System.Inv (x : System) : Prop where
  stage : ∀ (i : Nat) (r : Request), x.requests[i]? = some r → Stage r.code
  holds : ∀ (i : Nat) (r : Request), x.requests[i]? = some r → r.Holds → x.lock = some i
  one : x.users.length ≤ 1
  first : ∀ (i : Nat) (r : Request), x.requests[i]? = some r → r.Pending → x.users = []
  alone : ∀ (i j : Nat) (r r' : Request), x.requests[i]? = some r → x.requests[j]? = some r' →
    r.Pending → r'.Pending → i = j

/-- No user is counted while a creation is pending whose transaction has expired. -/
def Undisturbed (x : System) : Label → Prop
  | .count _ => ∀ (j : Nat) (r : Request), x.requests[j]? = some r →
    r.transaction = false → ¬ r.Pending
  | _ => True

section Steps

variable {x y : System} {i : Nat} {r r' : Request}

theorem getElem?_setRequest {j : Nat} {s : Request}
    (h : (x.setRequest i r').requests[j]? = some s) :
    (j = i ∧ s = r') ∨ (j ≠ i ∧ x.requests[j]? = some s) := by
  simp only [System.setRequest, List.getElem?_set] at h
  split_ifs at h with hij hlen
  · exact .inl ⟨hij.symm, (Option.some.inj h).symm⟩
  · exact .inr ⟨Ne.symm hij, h⟩

/-- What a step of one request has to respect. -/
theorem System.Inv.update (h : x.Inv) {users : List String} {lock : Option Nat}
    (hstage : Stage r'.code) (hi : r'.Holds → lock = some i)
    (hlock : ∀ (j : Nat) (r : Request), j ≠ i → x.requests[j]? = some r → r.Holds → lock = some j)
    (hone : users.length ≤ 1) (hpending : r'.Pending → users = [])
    (hothers : ∀ (j : Nat) (r : Request), j ≠ i → x.requests[j]? = some r → r.Pending →
      users = [] ∧ ¬ r'.Pending) :
    ({ x.setRequest i r' with users, lock } : System).Inv where
  stage j s hs := by
    rcases getElem?_setRequest hs with ⟨-, rfl⟩ | ⟨-, hs⟩
    · exact hstage
    · exact h.stage j s hs
  holds j s hs hh := by
    rcases getElem?_setRequest hs with ⟨rfl, rfl⟩ | ⟨hji, hs⟩
    · exact hi hh
    · exact hlock j s hji hs hh
  one := hone
  first j s hs hp := by
    rcases getElem?_setRequest hs with ⟨-, rfl⟩ | ⟨hji, hs⟩
    · exact hpending hp
    · exact (hothers j s hji hs hp).1
  alone j k s t hs ht hp hq := by
    rcases getElem?_setRequest hs with ⟨rfl, rfl⟩ | ⟨hji, hs'⟩ <;>
      rcases getElem?_setRequest ht with ⟨rfl, rfl⟩ | ⟨hki, ht'⟩
    · rfl
    · exact absurd hp (hothers k t hki ht' hq).2
    · exact absurd hq (hothers j s hji hs' hp).2
    · exact h.alone j k s t hs' ht' hp hq

/-- A step after which the request is no more pending than before, and the table the same. -/
theorem System.Inv.quiet (h : x.Inv) (hr : x.requests[i]? = some r) {lock : Option Nat}
    (hstage : Stage r'.code) (hi : r'.Holds → lock = some i)
    (hlock : ∀ (j : Nat) (r : Request), j ≠ i → x.requests[j]? = some r → r.Holds → lock = some j)
    (hpending : r'.Pending → r.Pending) :
    ({ x.setRequest i r' with lock } : System).Inv :=
  h.update hstage hi hlock h.one (fun hp => h.first i r hr (hpending hp))
    fun j s hji hs hp => ⟨h.first j s hs hp, fun hp' =>
      hji (h.alone j i s r hs hr hp (hpending hp'))⟩

theorem System.Inv.release (h : x.Inv) : ∀ (j : Nat) (r : Request), j ≠ i →
    x.requests[j]? = some r → r.Holds → x.release i = some j := by
  intro j r hji hr hh
  have hj := h.holds j r hr hh
  rw [System.release, if_neg, hj]
  rw [hj]
  exact fun he => hji (Option.some.inj he)

theorem System.Inv.arrive (h : x.Inv) (hstage : Stage r.code) (hh : ¬ r.Holds)
    (hp : ¬ r.Pending) : ({ x with requests := x.requests ++ [r] } : System).Inv := by
  have hget : ∀ {j : Nat} {s : Request}, (x.requests ++ [r])[j]? = some s →
      s = r ∨ x.requests[j]? = some s := by
    intro j s hs
    rw [List.getElem?_append] at hs
    split_ifs at hs with hlt
    · exact .inr hs
    · exact .inl (List.mem_singleton.mp (List.mem_of_getElem? hs))
  constructor
  · intro j s hs
    rcases hget hs with rfl | hs
    · exact hstage
    · exact h.stage j s hs
  · intro j s hs hsh
    rcases hget hs with rfl | hs
    · exact absurd hsh hh
    · exact h.holds j s hs hsh
  · exact h.one
  · intro j s hs hsp
    rcases hget hs with rfl | hs
    · exact absurd hsp hp
    · exact h.first j s hs hsp
  · intro j k s t hs ht hsp htp
    rcases hget hs with rfl | hs
    · exact absurd hsp hp
    · rcases hget ht with rfl | ht
      · exact absurd htp hp
      · exact h.alone j k s t hs ht hsp htp

/-- Counting with the lock: the others are not creating, or have been abandoned. -/
theorem System.Inv.count (h : x.Inv) {k : Settled Error Answer .count → Code}
    {outcome : Option (Except Error CreateResult)} {response : Option Response}
    (hr : x.requests[i]? = some ⟨.call .count k, true, outcome, response⟩)
    (hquiet : ∀ (j : Nat) (r : Request), x.requests[j]? = some r → r.transaction = false →
      ¬ r.Pending) :
    (x.setRequest i ⟨k (.ok x.users.length), true, outcome, response⟩).Inv := by
  have hlock : x.lock = some i := h.holds i _ hr ⟨rfl, nofun⟩
  have hnone : ∀ (j : Nat) (r : Request), j ≠ i → x.requests[j]? = some r → ¬ r.Pending := by
    intro j r hji hj hp
    cases ht : r.transaction with
    | false => exact hquiet j r hj ht hp
    | true =>
      obtain ⟨-, data, k', hcode⟩ := hp
      have := h.holds j r hj ⟨ht, by simp [hcode]⟩
      rw [hlock] at this
      exact hji (Option.some.inj this).symm
  have hstage := h.stage i _ hr
  refine h.update (stage_of_count hstage (.ok x.users.length)).1 (fun _ => hlock)
    (fun j r _ => h.holds j r) h.one (fun hp => ?_)
    fun j r hji hj hp => absurd hp (hnone j r hji hj)
  by_contra hne
  have hcount : (.ok x.users.length : Settled Error Answer .count) ≠ .ok 0 :=
    fun he => hne (List.eq_nil_of_length_eq_zero (Except.ok.inj he))
  exact not_pending_count hstage hcount hp

theorem not_holds_of_expired {code : Code} {outcome : Option (Except Error CreateResult)}
    {response : Option Response} :
    ¬ (⟨code, false, outcome, response⟩ : Request).Holds := fun h => nomatch h.1

/-- Every step keeps the invariant, as long as no count is disturbed. -/
theorem next_inv {isEmail : String → Bool} {l : Label} (h : x.Inv) (hl : Undisturbed x l)
    (hy : x.next isEmail l = some y) : y.Inv := by
  cases l with
  | arrive body =>
    simp only [System.next] at hy
    split at hy <;> cases hy
    · exact h.arrive (.done _) not_holds_of_expired not_pending_pure
    · exact h.arrive (.start body) (fun hh => hh.2 _ rfl) (by rintro ⟨-, _, _, ⟨⟩⟩)
  | lock i =>
    simp only [System.next] at hy
    split at hy <;> cases hy
    rename_i k outcome response hr hfree
    have hstage := h.stage i _ hr
    refine h.quiet hr (stage_of_lock hstage (.ok ())).1 (fun _ => rfl) (fun j r hji hj hh => ?_)
      (fun hp => absurd hp (not_pending_lock hstage (.ok ())))
    cases hfree.symm.trans (h.holds j r hj hh)
  | count i =>
    simp only [System.next] at hy
    split at hy <;> cases hy
    rename_i k outcome response hr
    exact h.count hr hl
  | insert i answer =>
    simp only [System.next] at hy
    split at hy
    · rename_i data k transaction response hr
      split_ifs at hy with hmem
      cases hy
      have hpending : (⟨.call (.createUser data) k, transaction, none, response⟩ :
          Request).Pending := ⟨rfl, data, k, rfl⟩
      have hempty := h.first i _ hr hpending
      have hstage := h.stage i _ hr
      exact h.update hstage (fun hh => h.holds i _ hr ⟨hh.1, nofun⟩)
        (fun j r _ => h.holds j r) (by simp [hempty]) nofun
        fun j r hji hj hp => absurd (h.alone j i r _ hj hr hp hpending) hji
    · cases hy
  | refuse i =>
    simp only [System.next] at hy
    split at hy <;> cases hy
    rename_i data k transaction response hr
    have hstage := h.stage i _ hr
    exact h.quiet hr hstage (fun hh => h.holds i _ hr ⟨hh.1, nofun⟩) (fun j r _ => h.holds j r)
      nofun
  | settle i =>
    simp only [System.next] at hy
    split at hy <;> cases hy
    rename_i data k transaction outcome response hr
    have hstage := h.stage i _ hr
    obtain ⟨result, hk⟩ := stage_of_createUser hstage outcome
    exact h.quiet hr (by rw [hk]; exact .done result)
      (fun hh => h.holds i _ hr ⟨hh.1, nofun⟩) (fun j r _ => h.holds j r)
      (fun hp => absurd hp (not_pending_createUser hstage outcome))
  | reject i =>
    simp only [System.next] at hy
    split at hy
    · cases hy
      rename_i k outcome response hr
      have hstage := h.stage i _ hr
      exact h.quiet hr (stage_of_lock hstage (.error .transactionClosed)).1
        (fun hh => absurd hh not_holds_of_expired) (fun j r _ => h.holds j r)
        (fun hp => absurd hp (not_pending_lock hstage _))
    · cases hy
      rename_i k outcome response hr
      have hstage := h.stage i _ hr
      exact h.quiet hr (stage_of_count hstage (.error .transactionClosed)).1
        (fun hh => absurd hh not_holds_of_expired) (fun j r _ => h.holds j r)
        (fun hp => absurd hp (not_pending_count hstage nofun))
    · cases hy
  | expire i =>
    simp only [System.next] at hy
    split at hy <;> cases hy
    rename_i code outcome response hr
    have hstage := h.stage i _ hr
    exact h.quiet hr hstage (fun hh => absurd hh not_holds_of_expired) h.release id
  | finish i =>
    simp only [System.next] at hy
    split at hy <;> cases hy
    rename_i result transaction outcome hr
    exact h.quiet hr (.done result) (fun hh => absurd hh not_holds_of_expired) h.release
      (fun hp => absurd hp not_pending_pure)

end Steps

/-! ## Whole runs -/

theorem inv_init : ({} : System).Inv where
  stage := by simp
  holds := by simp
  one := by simp
  first := by simp
  alone := by simp

/-- On an empty table at most one user is ever created, however many requests there are
and whatever expires, as long as no request counts while an abandoned creation pends. -/
theorem one_user (isEmail : String → Bool) {x : System}
    (run : Runs (System.next isEmail) Undisturbed {} x) : x.users.length ≤ 1 :=
  (run.invariant (fun _ _ _ h hl hy => next_inv h hl hy) inv_init).one

def anyEmail : String → Bool := fun _ => true

def ann : BootstrapInput := ⟨"Ann", "ann@example.org", "password"⟩
def bob : BootstrapInput := ⟨"Bob", "bob@example.org", "password"⟩

/-- Both requests, one after the other, without an expiry. -/
def inTurn : List Label := [
  .arrive ann, .arrive bob, .lock 0, .count 0, .insert 0 (.ok ⟨true⟩), .settle 0, .finish 0,
  .lock 1, .count 1, .finish 1]

def Request.isPending (r : Request) : Bool :=
  match r.code, r.outcome with
  | .call (.createUser _) _, none => true
  | _, _ => false

theorem Request.Pending.isPending {r : Request} (h : r.Pending) : r.isPending := by
  obtain ⟨hnone, data, k, hcode⟩ := h
  simp [Request.isPending, hnone, hcode]

def undisturbed (x : System) : Label → Bool
  | .count _ => x.requests.all fun r => r.transaction || !r.isPending
  | _ => true

theorem undisturbed_sound (x : System) (l : Label) (h : undisturbed x l) : Undisturbed x l := by
  cases l with
  | count i =>
    intro j r hr ht hp
    have := List.all_eq_true.mp h r (List.mem_of_getElem? hr)
    simp [ht, hp.isPending] at this
  | _ => trivial

theorem one_user_inTurn : ∃ x : System,
    x.requests.map (·.response) =
      [some ⟨200, none⟩, some ⟨400, some "Setup already completed"⟩] ∧
    x.users = [ann.email] ∧ x.users.length ≤ 1 := by
  obtain ⟨x, hrun, hresponses, husers⟩ : ∃ x : System,
      runChecked undisturbed (System.next anyEmail) {} inTurn = some x ∧
      x.requests.map (·.response) =
        [some ⟨200, none⟩, some ⟨400, some "Setup already completed"⟩] ∧
      x.users = [ann.email] := ⟨_, rfl, rfl, rfl⟩
  exact ⟨x, hresponses, husers, one_user anyEmail (runs_of_checked undisturbed_sound hrun)⟩

/-- The first transaction expires during its creation, and the second request counts. -/
def abandoned : List Label := [
  .arrive ann, .arrive bob, .lock 0, .count 0, .expire 0, .lock 1, .count 1,
  .insert 0 (.ok ⟨true⟩), .insert 1 (.ok ⟨true⟩), .settle 0, .settle 1, .finish 0, .finish 1]

theorem two_users : ¬ ∀ x, Runs (System.next anyEmail) Anything {} x → x.users.length ≤ 1 := by
  intro h
  obtain ⟨x, hrun, husers⟩ : ∃ x, runLabels (System.next anyEmail) {} abandoned = some x ∧
      x.users = [ann.email, bob.email] := ⟨_, rfl, rfl⟩
  have := h x (runs_of_labels (fun _ _ _ => trivial) hrun)
  simp [husers] at this

/-! ## Expiry -/

/-- No transaction expires while its creation is pending. -/
def Unexpired (x : System) : Label → Prop
  | .expire i => ∀ r, x.requests[i]? = some r → ¬ r.Pending
  | _ => True

/-- Creations that are pending have their transaction, so nothing is ever disturbed. -/
def NoneAbandoned (x : System) : Prop :=
  ∀ (i : Nat) (r : Request), x.requests[i]? = some r → r.Pending → r.transaction = true

theorem noneAbandoned_set {x : System} {i : Nat} {r : Request} {users : List String}
    {lock : Option Nat} (h : NoneAbandoned x) (hr : r.Pending → r.transaction = true) :
    NoneAbandoned { x.setRequest i r with users, lock } := by
  intro j s hs hp
  rcases getElem?_setRequest hs with ⟨-, rfl⟩ | ⟨-, hs⟩
  · exact hr hp
  · exact h j s hs hp

theorem next_noneAbandoned {isEmail : String → Bool} {x y : System} {l : Label} (h : x.Inv)
    (hx : NoneAbandoned x) (hl : Unexpired x l) (hy : x.next isEmail l = some y) :
    NoneAbandoned y := by
  cases l with
  | arrive body =>
    have happend : ∀ r : Request, ¬ r.Pending →
        NoneAbandoned { x with requests := x.requests ++ [r] } := by
      intro r hr j s hs hp
      rw [List.getElem?_append] at hs
      split_ifs at hs
      · exact hx j s hs hp
      · exact absurd (List.mem_singleton.mp (List.mem_of_getElem? hs) ▸ hp) hr
    simp only [System.next] at hy
    split at hy <;> cases hy
    all_goals
      refine happend _ ?_
      rintro ⟨-, _, _, ⟨⟩⟩
  | lock i =>
    simp only [System.next] at hy
    split at hy <;> cases hy
    exact noneAbandoned_set hx fun _ => rfl
  | count i =>
    simp only [System.next] at hy
    split at hy <;> cases hy
    exact noneAbandoned_set hx fun _ => rfl
  | insert i answer =>
    simp only [System.next] at hy
    split at hy
    · split_ifs at hy
      cases hy
      exact noneAbandoned_set hx fun hp => nomatch hp.1
    · cases hy
  | refuse i =>
    simp only [System.next] at hy
    split at hy <;> cases hy
    exact noneAbandoned_set hx fun hp => nomatch hp.1
  | settle i =>
    simp only [System.next] at hy
    split at hy <;> cases hy
    rename_i data k transaction outcome response hr
    exact noneAbandoned_set hx fun hp =>
      absurd hp (not_pending_createUser (h.stage i _ hr) outcome)
  | reject i =>
    simp only [System.next] at hy
    split at hy
    · cases hy
      rename_i k outcome response hr
      exact noneAbandoned_set hx fun hp => absurd hp (not_pending_lock (h.stage i _ hr) _)
    · cases hy
      rename_i k outcome response hr
      exact noneAbandoned_set hx fun hp => absurd hp (not_pending_count (h.stage i _ hr) nofun)
    · cases hy
  | expire i =>
    simp only [System.next] at hy
    split at hy <;> cases hy
    rename_i code outcome response hr
    exact noneAbandoned_set hx fun hp => (hl _ hr ⟨hp.1, hp.2⟩).elim
  | finish i =>
    simp only [System.next] at hy
    split at hy <;> cases hy
    exact noneAbandoned_set hx fun hp => absurd hp not_pending_pure

/-- A transaction that expires during its creation is the only danger. -/
theorem one_user_of_no_expiry (isEmail : String → Bool) {x : System}
    (run : Runs (System.next isEmail) Unexpired {} x) : x.users.length ≤ 1 := by
  have hinv : x.Inv ∧ NoneAbandoned x := by
    refine run.invariant (I := fun x => x.Inv ∧ NoneAbandoned x) (fun s l t hs hl hy => ?_)
      ⟨inv_init, nofun⟩
    have hquiet : Undisturbed s l := by
      cases l with
      | count i =>
        intro j r hr ht hp
        cases ht.symm.trans (hs.2 j r hr hp)
      | _ => trivial
    exact ⟨next_inv hs.1 hquiet hy, next_noneAbandoned hs.1 hs.2 hl hy⟩
  exact hinv.1.one

end Minikura.Backend.Bootstrap
