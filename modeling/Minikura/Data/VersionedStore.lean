import Mathlib.Data.List.AList

/-!
# A store of versioned objects

Every accepted write stamps the object with a version nobody has seen before, and a
replacement names the version it was computed from. Requests answer with a refusal
when their precondition does not hold; a refused request changes nothing.

## Main definitions

* `VersionedStore` — objects with their versions; no version is ahead of the clock.
* `replace`, `create`, `delete` — the requests, `put` and `remove` their effects.
* `select` — the keys whose objects pass a test.
-/

namespace Minikura

structure Versioned (α : Type) where
  version : Nat
  value : α
deriving Repr, DecidableEq

inductive Refusal where
  | notFound
  | alreadyExists
  | conflict
  | invalid
deriving Repr, DecidableEq

structure VersionedStore (κ : Type) [DecidableEq κ] (α : Type) where
  objects : AList fun _ : κ => Versioned α
  clock : Nat
  fresh : ∀ k o, objects.lookup k = some o → o.version ≤ clock

namespace VersionedStore

variable {κ α : Type} [DecidableEq κ]

def empty : VersionedStore κ α := ⟨∅, 0, by simp⟩

def lookup (s : VersionedStore κ α) (k : κ) : Option (Versioned α) := s.objects.lookup k

/-- The object under a key, whatever its version. -/
def value (s : VersionedStore κ α) (k : κ) : Option α := (s.lookup k).map (·.value)

def put (s : VersionedStore κ α) (k : κ) (a : α) : VersionedStore κ α where
  objects := s.objects.insert k ⟨s.clock + 1, a⟩
  clock := s.clock + 1
  fresh l o h := by
    by_cases hl : l = k
    · subst hl
      rw [AList.lookup_insert, Option.some_inj] at h
      rw [← h]
    · rw [AList.lookup_insert_ne hl] at h
      exact Nat.le_succ_of_le (s.fresh l o h)

def remove (s : VersionedStore κ α) (k : κ) : VersionedStore κ α where
  objects := s.objects.erase k
  clock := s.clock
  fresh l o h := by
    by_cases hl : l = k
    · rw [hl, AList.lookup_erase] at h
      cases h
    · rw [AList.lookup_erase_ne hl] at h
      exact s.fresh l o h

/-- The keys of the objects that pass a test. -/
def select (s : VersionedStore κ α) (p : κ → α → Bool) : List κ :=
  (s.objects.entries.filter fun e => p e.1 e.2.value).map (·.1)

/-! ## Requests -/

/-- Overwrite an object; a named version has to be the current one. -/
def replace (s : VersionedStore κ α) (k : κ) (version : Option Nat) (a : α) :
    Except Refusal (VersionedStore κ α) :=
  match s.lookup k with
  | none => .error .notFound
  | some o =>
    if version.all (· = o.version) then .ok (s.put k a) else .error .conflict

/-- Add an object; it must not name a version and must not exist. -/
def create (s : VersionedStore κ α) (k : κ) (version : Option Nat) (a : α) :
    Except Refusal (VersionedStore κ α) :=
  if version.isSome then .error .invalid
  else if (s.lookup k).isSome then .error .alreadyExists
  else .ok (s.put k a)

def delete (s : VersionedStore κ α) (k : κ) : Except Refusal (VersionedStore κ α) :=
  if (s.lookup k).isSome then .ok (s.remove k) else .error .notFound

/-! ## Lookups -/

@[simp] theorem lookup_empty (k : κ) : (empty : VersionedStore κ α).lookup k = none := by
  simp [lookup, empty]

@[simp] theorem lookup_put (s : VersionedStore κ α) (k : κ) (a : α) :
    (s.put k a).lookup k = some ⟨s.clock + 1, a⟩ := AList.lookup_insert _

theorem lookup_put_ne (s : VersionedStore κ α) {k l : κ} (a : α) (h : l ≠ k) :
    (s.put k a).lookup l = s.lookup l := AList.lookup_insert_ne h

@[simp] theorem lookup_remove (s : VersionedStore κ α) (k : κ) :
    (s.remove k).lookup k = none := AList.lookup_erase _ _

theorem lookup_remove_ne (s : VersionedStore κ α) {k l : κ} (h : l ≠ k) :
    (s.remove k).lookup l = s.lookup l := AList.lookup_erase_ne h

theorem version_le_clock {s : VersionedStore κ α} {k : κ} {o : Versioned α}
    (h : s.lookup k = some o) : o.version ≤ s.clock := s.fresh k o h

@[simp] theorem clock_put (s : VersionedStore κ α) (k : κ) (a : α) :
    (s.put k a).clock = s.clock + 1 := rfl

@[simp] theorem clock_remove (s : VersionedStore κ α) (k : κ) :
    (s.remove k).clock = s.clock := rfl

theorem mem_select_iff {s : VersionedStore κ α} {p : κ → α → Bool} {k : κ} :
    k ∈ s.select p ↔ ∃ o, s.lookup k = some o ∧ p k o.value := by
  simp only [select, List.mem_map, List.mem_filter, lookup, AList.mem_lookup_iff,
    ← Option.mem_def]
  constructor
  · rintro ⟨⟨k, o⟩, ⟨hmem, hp⟩, rfl⟩
    exact ⟨o, hmem, hp⟩
  · rintro ⟨o, hmem, hp⟩
    exact ⟨⟨k, o⟩, ⟨hmem, hp⟩, rfl⟩

theorem nodup_select (s : VersionedStore κ α) (p : κ → α → Bool) : (s.select p).Nodup :=
  (List.filter_sublist.map _).nodup s.objects.nodupKeys

/-! ## What a request can do -/

theorem replace_ok {s t : VersionedStore κ α} {k : κ} {version : Option Nat} {a : α}
    (h : s.replace k version a = .ok t) :
    t = s.put k a ∧ ∃ o, s.lookup k = some o ∧ ∀ v, version = some v → v = o.version := by
  unfold replace at h
  split at h
  · cases h
  · rename_i o ho
    split_ifs at h with hv
    cases h
    refine ⟨rfl, o, ho, ?_⟩
    rintro v rfl
    simpa using hv

theorem replace_current {s : VersionedStore κ α} {k : κ} {o : Versioned α} (a : α)
    (h : s.lookup k = some o) : s.replace k (some o.version) a = .ok (s.put k a) := by
  simp [replace, h]

theorem create_ok {s t : VersionedStore κ α} {k : κ} {version : Option Nat} {a : α}
    (h : s.create k version a = .ok t) :
    t = s.put k a ∧ version = none ∧ s.lookup k = none := by
  unfold create at h
  split_ifs at h with hv hk
  cases h
  exact ⟨rfl, by simpa using hv, by simpa using hk⟩

theorem create_absent {s : VersionedStore κ α} {k : κ} (a : α) (h : s.lookup k = none) :
    s.create k none a = .ok (s.put k a) := by
  simp [create, h]

theorem delete_ok {s t : VersionedStore κ α} {k : κ} (h : s.delete k = .ok t) :
    t = s.remove k := by
  unfold delete at h
  split_ifs at h
  cases h
  rfl

end VersionedStore
end Minikura
