import Mathlib.Data.List.Nodup
import Mathlib.Data.List.ReduceOption

/-!
# Sets with entries

A JavaScript `Set` is a list of entries in the order of insertion. A value that is deleted
leaves an empty entry, so that an iteration that is under way neither skips nor repeats one.

## Main definitions

* `EntrySet` — entries that hold every value at most once.
* `EntrySet.forEach` — the iteration, whose body may change the set.

## Main result

* `EntrySet.forEach_eq` — an iteration whose body deletes at most the entry it visits.
-/

namespace Minikura

variable {α σ : Type}

structure EntrySet (α : Type) where
  entries : List (Option α)
  distinct : entries.reduceOption.Nodup

namespace EntrySet

def empty : EntrySet α := ⟨[], List.nodup_nil⟩

def members (s : EntrySet α) : List α := s.entries.reduceOption

theorem members_nodup (s : EntrySet α) : s.members.Nodup := s.distinct

theorem mem_members {s : EntrySet α} {a : α} : a ∈ s.members ↔ some a ∈ s.entries :=
  List.reduceOption_mem_iff

theorem reduceOption_map_filter (p : α → Bool) (entries : List (Option α)) :
    (entries.map (·.filter (!p ·))).reduceOption = entries.reduceOption.filter (!p ·) := by
  induction entries with
  | nil => rfl
  | cons entry entries ih =>
    cases entry with
    | none => simpa using ih
    | some a => cases hp : p a <;> simp [Option.filter_some, hp, ih]

variable [DecidableEq α]

def erased (a : α) (entry : Option α) : Option α := if entry = some a then none else entry

theorem reduceOption_erased (a : α) (entries : List (Option α)) :
    (entries.map (erased a)).reduceOption = entries.reduceOption.filter (· ≠ a) := by
  induction entries with
  | nil => rfl
  | cons entry entries ih =>
    cases entry with
    | none => simpa [erased] using ih
    | some b =>
      by_cases h : b = a
      · simpa [erased, h] using ih
      · simpa [erased, h] using ih

def add (s : EntrySet α) (a : α) : EntrySet α :=
  if h : a ∈ s.members then s
  else
    { entries := s.entries ++ [some a]
      distinct := by
        rw [List.reduceOption_append]
        refine s.distinct.append (List.nodup_singleton a) ?_
        simpa [List.reduceOption, mem_members] using h }

def delete (s : EntrySet α) (a : α) : EntrySet α where
  entries := s.entries.map (erased a)
  distinct := by
    rw [reduceOption_erased]
    exact s.distinct.filter _

/-- The iteration from a position on; the number of steps is that of the entries there are. -/
def forEachFrom (body : α → EntrySet α × σ → EntrySet α × σ) :
    ℕ → ℕ → EntrySet α × σ → EntrySet α × σ
  | 0, _, s => s
  | n + 1, i, s =>
    forEachFrom body n (i + 1)
      (match s.1.entries[i]? with
        | some (some a) => body a s
        | _ => s)

/-- For a body that adds nothing: what it adds would be visited as well. -/
def forEach (s : EntrySet α) (init : σ) (body : α → EntrySet α × σ → EntrySet α × σ) :
    EntrySet α × σ :=
  forEachFrom body s.entries.length 0 (s, init)

section

variable {s : EntrySet α} {a b : α}

theorem members_add (s : EntrySet α) (a : α) :
    (s.add a).members = if a ∈ s.members then s.members else s.members ++ [a] := by
  unfold add
  split_ifs with h
  · rfl
  · exact List.reduceOption_append s.entries [some a]

@[simp] theorem mem_add : b ∈ (s.add a).members ↔ b ∈ s.members ∨ b = a := by
  rw [members_add]
  split_ifs with h
  · exact ⟨.inl, fun hb => hb.elim id (· ▸ h)⟩
  · simp

@[simp] theorem members_delete (s : EntrySet α) (a : α) :
    (s.delete a).members = s.members.filter (· ≠ a) :=
  reduceOption_erased a s.entries

theorem mem_delete : b ∈ (s.delete a).members ↔ b ∈ s.members ∧ b ≠ a := by
  simp

/-! ## Iteration -/

/-- An empty entry where the value has been deleted. -/
theorem entries_delete {before after : List (Option α)}
    (h : s.entries = before ++ some a :: after) :
    (s.delete a).entries = before ++ none :: after := by
  have hdistinct := s.distinct
  rw [h, List.reduceOption_append, List.reduceOption_cons_of_some, List.nodup_middle,
    List.nodup_cons, List.mem_append, List.reduceOption_mem_iff, List.reduceOption_mem_iff,
    not_or] at hdistinct
  obtain ⟨⟨hbefore, hafter⟩, -⟩ := hdistinct
  have hself : ∀ entries : List (Option α), some a ∉ entries →
      entries.map (erased a) = entries := by
    intro entries hmem
    refine (List.map_congr_left fun entry hentry => if_neg ?_).trans (List.map_id entries)
    rintro rfl
    exact hmem hentry
  have hentries : (s.delete a).entries = (before ++ some a :: after).map (erased a) :=
    congrArg (List.map (erased a)) h
  rw [hentries, List.map_append, List.map_cons, hself before hbefore, hself after hafter,
    erased, if_pos rfl]

variable {p : α → Bool} {f : α → σ → σ} {body : α → EntrySet α × σ → EntrySet α × σ}

/-- The entries before the position have been visited. -/
theorem forEachFrom_eq
    (hbody : ∀ a s t, body a (s, t) = (if p a then s.delete a else s, f a t))
    (after before : List (Option α)) (s : EntrySet α) (h : s.entries = before ++ after) (t : σ) :
    ∃ s', s'.entries = before ++ after.map (·.filter (!p ·)) ∧
      forEachFrom body after.length before.length (s, t) =
        (s', after.reduceOption.foldl (fun t a => f a t) t) := by
  induction after generalizing before s t with
  | nil => exact ⟨s, h, rfl⟩
  | cons entry after ih =>
    have hentry : s.entries[before.length]? = some entry := by simp [h]
    have hnext : ∀ (entry' : Option α) (s₁ : EntrySet α) (t₁ : σ),
        s₁.entries = before ++ entry' :: after → entry' = entry.filter (!p ·) →
        ∃ s', s'.entries = before ++ (entry :: after).map (·.filter (!p ·)) ∧
          forEachFrom body after.length (before.length + 1) (s₁, t₁) =
            (s', after.reduceOption.foldl (fun t a => f a t) t₁) := by
      intro entry' s₁ t₁ hs₁ hentry'
      obtain ⟨s', hs', heq⟩ := ih (before ++ [entry']) s₁ (by simp [hs₁]) t₁
      rw [List.length_append] at heq
      exact ⟨s', by simp [hs', hentry'], heq⟩
    simp only [List.length_cons, forEachFrom, hentry]
    cases entry with
    | none => exact hnext none s t h rfl
    | some a =>
      simp only [hbody, List.reduceOption_cons_of_some, List.foldl_cons]
      cases hp : p a with
      | true =>
        exact hnext none (s.delete a) (f a t) (entries_delete h) (by simp [Option.filter_some, hp])
      | false => exact hnext (some a) s (f a t) h (by simp [Option.filter_some, hp])

/-- Every member there was is visited once, whatever is deleted on the way. -/
theorem forEach_eq (hbody : ∀ a s t, body a (s, t) = (if p a then s.delete a else s, f a t))
    (s : EntrySet α) (t : σ) :
    (s.forEach t body).1.members = s.members.filter (!p ·) ∧
    (s.forEach t body).2 = s.members.foldl (fun t a => f a t) t := by
  obtain ⟨s', hs', heq⟩ := forEachFrom_eq hbody s.entries [] s rfl t
  rw [forEach]
  rw [List.length_nil] at heq
  rw [heq, members, hs', List.nil_append, reduceOption_map_filter]
  exact ⟨rfl, rfl⟩

end

end EntrySet
end Minikura
