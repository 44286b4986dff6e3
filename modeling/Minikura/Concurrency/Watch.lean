import Mathlib.Data.List.AList

/-!
# Watched stores

A replica follows a store through a stream of changes. A change is reflected in the
replica before it is delivered to whoever watches the store, each in the order of the
changes. What no pending change is about is the same in the store and in the replica.

## Main definitions

* `Watched` — a store with its replica and the changes on their way.
* `Watched.Tracks` — the changes on their way lead from the replica to the store.

## Main results

* `Tracks.lookup_eq`, `Tracks.lookup_iff` — where the replica is up to date.
* `lookup_change_iff` — what a change leaves alone.
-/

namespace Minikura.Concurrency

variable {κ ρ : Type} [DecidableEq κ]

/-- A key has got another value, or lost its value. -/
structure Change (κ ρ : Type) where
  key : κ
  old : Option ρ
  new : Option ρ
deriving DecidableEq

/-- The values a change is about. -/
def Change.values (e : Change κ ρ) : List ρ := e.old.toList ++ e.new.toList

structure Watched (κ ρ : Type) [DecidableEq κ] where
  store : AList fun _ : κ => ρ
  /-- Changes that the replica has not seen yet. -/
  unseen : List (Change κ ρ)
  replica : AList fun _ : κ => ρ
  /-- Changes that the replica has seen and no watcher has. -/
  undelivered : List (Change κ ρ)

/-- Set the value of a key, or remove it. -/
def put (m : AList fun _ : κ => ρ) (k : κ) : Option ρ → AList fun _ : κ => ρ
  | some v => m.insert k v
  | none => m.erase k

@[simp] theorem lookup_put_self (m : AList fun _ : κ => ρ) (k : κ) (o : Option ρ) :
    (put m k o).lookup k = o := by
  cases o with
  | none => exact AList.lookup_erase ..
  | some v => exact AList.lookup_insert ..

theorem lookup_put_ne (m : AList fun _ : κ => ρ) {k l : κ} (h : l ≠ k) (o : Option ρ) :
    (put m k o).lookup l = m.lookup l := by
  cases o with
  | none => exact AList.lookup_erase_ne h
  | some v => exact AList.lookup_insert_ne h

/-- Stores that agree on the values of some kind list the same of them. -/
theorem perm_filter_values {m m' : AList fun _ : κ => ρ} {P : ρ → Bool}
    (h : ∀ k v, P v → (m.lookup k = some v ↔ m'.lookup k = some v)) :
    ((m.entries.map (·.2)).filter P).Perm ((m'.entries.map (·.2)).filter P) := by
  have hmem (n : AList fun _ : κ => ρ) (e : Σ _ : κ, ρ) :
      e ∈ n.entries ↔ n.lookup e.1 = some e.2 := AList.mem_lookup_iff.symm
  simp only [List.filter_map]
  refine List.Perm.map _ ((List.perm_ext_iff_of_nodup (m.nodupKeys.nodup.filter _)
    (m'.nodupKeys.nodup.filter _)).mpr fun e => ?_)
  rw [List.mem_filter, List.mem_filter, hmem, hmem]
  exact and_congr_left fun he => h e.1 e.2 he

namespace Watched

def empty : Watched κ ρ := ⟨∅, [], ∅, []⟩

/-- The changes that have not been delivered. -/
def pending (w : Watched κ ρ) : List (Change κ ρ) := w.undelivered ++ w.unseen

/-- Change the store. What changes nothing goes unnoticed. -/
def change [DecidableEq ρ] (w : Watched κ ρ) (k : κ) (new : Option ρ) : Watched κ ρ :=
  if w.store.lookup k = new then w
  else
    { w with
      store := put w.store k new
      unseen := w.unseen ++ [⟨k, w.store.lookup k, new⟩] }

/-- Reflect the next change in the replica. -/
def reflect (w : Watched κ ρ) : Watched κ ρ :=
  match w.unseen with
  | [] => w
  | e :: rest =>
    { w with
      unseen := rest
      replica := put w.replica e.key e.new
      undelivered := w.undelivered ++ [e] }

/-- The next change to be delivered, and what is left. -/
def deliver (w : Watched κ ρ) : Option (Change κ ρ × Watched κ ρ) :=
  match w.undelivered with
  | [] => none
  | e :: rest => some (e, { w with undelivered := rest })

/-! ## From the replica to the store -/

/-- The changes of a key lead from one value to another. -/
def Leads (k : κ) : List (Change κ ρ) → Option ρ → Option ρ → Prop
  | [], before, after => before = after
  | e :: rest, before, after =>
    if e.key = k then e.old = before ∧ Leads k rest e.new after else Leads k rest before after

theorem Leads.append {k : κ} {es : List (Change κ ρ)} {before after : Option ρ}
    (h : Leads k es before after) (e : Change κ ρ) (he : e.key = k → e.old = after) :
    Leads k (es ++ [e]) before (if e.key = k then e.new else after) := by
  induction es generalizing before with
  | nil =>
    obtain rfl : before = after := h
    by_cases hk : e.key = k
    · simp [Leads, hk, he hk]
    · simp [Leads, hk]
  | cons d es ih =>
    rw [List.cons_append]
    unfold Leads at h ⊢
    by_cases hd : d.key = k
    · rw [if_pos hd] at h ⊢
      exact ⟨h.1, ih h.2⟩
    · rw [if_neg hd] at h ⊢
      exact ih h

/-- No change of the key is on its way. -/
theorem Leads.eq {k : κ} {es : List (Change κ ρ)} {before after : Option ρ}
    (h : Leads k es before after) (hes : ∀ e ∈ es, e.key ≠ k) : before = after := by
  induction es generalizing before with
  | nil => exact h
  | cons e es ih =>
    rw [Leads, if_neg (hes e (List.mem_cons_self ..))] at h
    exact ih h fun d hd => hes d (List.mem_cons_of_mem e hd)

/-- A value that no change is about is there before exactly if it is there after. -/
theorem Leads.iff {k : κ} {es : List (Change κ ρ)} {before after : Option ρ} {v : ρ}
    (h : Leads k es before after) (hes : ∀ e ∈ es, v ∉ e.values) :
    before = some v ↔ after = some v := by
  induction es generalizing before with
  | nil => rw [show before = after from h]
  | cons e es ih =>
    have ih := fun before (h : Leads k es before after) => ih h fun d hd =>
      hes d (List.mem_cons_of_mem e hd)
    have he := hes e (List.mem_cons_self ..)
    simp only [Change.values, List.mem_append, Option.mem_toList, not_or] at he
    rw [Leads] at h
    split_ifs at h with hk
    · rw [← ih _ h.2, ← h.1]
      exact iff_of_false he.1 he.2
    · exact ih _ h

/-- The changes on their way lead from the replica to the store. -/
def Tracks (w : Watched κ ρ) : Prop :=
  ∀ k, Leads k w.unseen (w.replica.lookup k) (w.store.lookup k)

variable {w : Watched κ ρ}

theorem tracks_empty : (empty : Watched κ ρ).Tracks := fun _ => rfl

theorem Tracks.change [DecidableEq ρ] (h : w.Tracks) (k : κ) (new : Option ρ) :
    (w.change k new).Tracks := by
  unfold Watched.change
  split_ifs
  · exact h
  · intro l
    have hl := (h l).append ⟨k, w.store.lookup k, new⟩ fun he => by rw [← he]
    by_cases hk : l = k
    · subst hk
      simpa using hl
    · rw [if_neg (fun he => hk he.symm)] at hl
      simpa only [lookup_put_ne w.store hk] using hl

theorem Tracks.reflect (h : w.Tracks) : w.reflect.Tracks := by
  unfold Watched.reflect
  cases hunseen : w.unseen with
  | nil => exact h
  | cons e rest =>
    intro l
    have hl := h l
    rw [hunseen, Leads] at hl
    by_cases hk : e.key = l
    · subst hk
      rw [if_pos rfl] at hl
      simpa using hl.2
    · rw [if_neg hk] at hl
      simpa only [lookup_put_ne w.replica (Ne.symm hk)] using hl

theorem Tracks.deliver {e : Change κ ρ} {w' : Watched κ ρ} (h : w.Tracks)
    (hd : w.deliver = some (e, w')) : w'.Tracks := by
  unfold Watched.deliver at hd
  cases hu : w.undelivered with
  | nil => simp [hu] at hd
  | cons d rest =>
    simp only [hu, Option.some.injEq, Prod.mk.injEq] at hd
    rw [← hd.2]
    exact h

/-- A key with no change on its way is up to date in the replica. -/
theorem Tracks.lookup_eq (h : w.Tracks) {k : κ} (hk : ∀ e ∈ w.pending, e.key ≠ k) :
    w.replica.lookup k = w.store.lookup k :=
  (h k).eq fun e he => hk e (List.mem_append_right _ he)

/-- So is a value that no change on its way is about. -/
theorem Tracks.lookup_iff (h : w.Tracks) {v : ρ} (hv : ∀ e ∈ w.pending, v ∉ e.values) (k : κ) :
    w.replica.lookup k = some v ↔ w.store.lookup k = some v :=
  (h k).iff fun e he => hv e (List.mem_append_right _ he)

/-! ## What is pending -/

/-- Either nothing happens, or the change is on its way. -/
theorem change_cases [DecidableEq ρ] (w : Watched κ ρ) (k : κ) (new : Option ρ) :
    w.change k new = w ∨ (w.change k new).store = put w.store k new ∧
      (w.change k new).replica = w.replica ∧
      ∀ e, e ∈ (w.change k new).pending ↔
        e ∈ w.pending ∨ e = ⟨k, w.store.lookup k, new⟩ := by
  unfold change
  split_ifs
  · exact .inl rfl
  · refine .inr ⟨rfl, rfl, fun e => ?_⟩
    simp [pending, or_assoc]

/-- What no change on its way is about was not changed by the last one. -/
theorem lookup_change_iff [DecidableEq ρ] {k l : κ} {new : Option ρ} {v : ρ}
    (hv : ∀ e ∈ (w.change k new).pending, v ∉ e.values) :
    (w.change k new).store.lookup l = some v ↔ w.store.lookup l = some v := by
  rcases change_cases w k new with h | ⟨hstore, -, hpending⟩
  · rw [h]
  · by_cases hl : l = k
    · subst hl
      have he := hv _ ((hpending _).mpr (.inr rfl))
      simp only [Change.values, List.mem_append, Option.mem_toList, not_or] at he
      rw [hstore, lookup_put_self]
      exact iff_of_false he.2 he.1
    · rw [hstore, lookup_put_ne _ hl]

/-- Nor was a key with no change on its way. -/
theorem lookup_change_eq [DecidableEq ρ] {k l : κ} {new : Option ρ}
    (hl : ∀ e ∈ (w.change k new).pending, e.key ≠ l) :
    (w.change k new).store.lookup l = w.store.lookup l := by
  rcases change_cases w k new with h | ⟨hstore, -, hpending⟩
  · rw [h]
  · rw [hstore, lookup_put_ne _ (Ne.symm (hl _ ((hpending _).mpr (.inr rfl))))]

/-- A change that is not on its way was none. -/
theorem eq_of_change [DecidableEq ρ] {k : κ} {new : Option ρ}
    (h : ∀ e ∈ (w.change k new).pending, e.key ≠ k) : w.store.lookup k = new := by
  by_contra hne
  refine h ⟨k, w.store.lookup k, new⟩ ?_ rfl
  simp [change, pending, hne]

theorem pending_change [DecidableEq ρ] {k : κ} {new : Option ρ} {e : Change κ ρ}
    (he : e ∈ w.pending) : e ∈ (w.change k new).pending := by
  rcases change_cases w k new with h | ⟨-, -, hpending⟩
  · rwa [h]
  · exact (hpending e).mpr (.inl he)

@[simp] theorem store_reflect (w : Watched κ ρ) : w.reflect.store = w.store := by
  unfold reflect
  cases w.unseen <;> rfl

@[simp] theorem pending_reflect (w : Watched κ ρ) : w.reflect.pending = w.pending := by
  unfold reflect pending
  cases h : w.unseen with
  | nil => simp [h]
  | cons e rest => simp

theorem deliver_eq {e : Change κ ρ} {w' : Watched κ ρ} (h : w.deliver = some (e, w')) :
    w'.store = w.store ∧ w'.replica = w.replica ∧ w.pending = e :: w'.pending := by
  unfold deliver at h
  cases hu : w.undelivered with
  | nil => simp [hu] at h
  | cons d rest =>
    simp only [hu, Option.some.injEq, Prod.mk.injEq] at h
    obtain ⟨rfl, rfl⟩ := h
    exact ⟨rfl, rfl, by simp [pending, hu]⟩

end Watched
end Minikura.Concurrency
