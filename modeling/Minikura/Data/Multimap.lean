import Minikura.Data.OrderedMap

/-!
# Maps to lists of items

An insertion-ordered map in which an item is pushed to the list at its key, which begins empty.

## Main results

* `bucket_pushAll` — the items pushed to a key are at that key, in their order.
* `flatMap_pushAll_perm` — every item pushed is at one key, once.
-/

namespace Minikura

variable {κ α : Type} [DecidableEq κ]

/-- What comes of `get(key) || []` with an item pushed. -/
def pushTo (m : List (κ × List α)) (key : κ) (item : α) : List (κ × List α) :=
  setEntry m key ((m.lookup key).getD [] ++ [item])

def pushAll (m : List (κ × List α)) (es : List (κ × α)) : List (κ × List α) :=
  es.foldl (fun m e => pushTo m e.1 e.2) m

/-- The items at a key. -/
def bucket (m : List (κ × List α)) (key : κ) : List α := (m.lookup key).getD []

theorem pushTo_eq (m : List (κ × List α)) (key : κ) (item : α) :
    pushTo m key item = setEntry m key (bucket m key ++ [item]) := rfl

@[simp] theorem pushAll_nil (m : List (κ × List α)) : pushAll m [] = m := rfl

@[simp] theorem pushAll_cons (m : List (κ × List α)) (e : κ × α) (es : List (κ × α)) :
    pushAll m (e :: es) = pushAll (pushTo m e.1 e.2) es := rfl

@[simp] theorem bucket_nil (key : κ) : bucket ([] : List (κ × List α)) key = [] := rfl

theorem bucket_pushTo (m : List (κ × List α)) (key key' : κ) (item : α) :
    bucket (pushTo m key item) key' =
      bucket m key' ++ if key' = key then [item] else [] := by
  rw [pushTo_eq, bucket, lookup_setEntry]
  by_cases h : key' = key
  · simp [h]
  · simp [h, bucket]

/-- The items pushed to a key are at that key, in their order. -/
theorem bucket_pushAll (m : List (κ × List α)) (es : List (κ × α)) (key : κ) :
    bucket (pushAll m es) key = bucket m key ++ (es.filter (·.1 = key)).map (·.2) := by
  induction es generalizing m with
  | nil => simp
  | cons e es ih =>
    rw [pushAll_cons, ih, bucket_pushTo, List.filter_cons, List.append_assoc]
    by_cases h : key = e.1
    · simp [h]
    · simp [h, Ne.symm h]

theorem nodup_pushAll {m : List (κ × List α)} (es : List (κ × α)) (h : (m.map (·.1)).Nodup) :
    ((pushAll m es).map (·.1)).Nodup := by
  induction es generalizing m with
  | nil => exact h
  | cons e es ih => exact ih (nodup_setEntry _ _ h)

/-- An entry of a map with distinct keys is what is at its key. -/
theorem bucket_of_mem {m : List (κ × List α)} {e : κ × List α} (h : (m.map (·.1)).Nodup)
    (he : e ∈ m) : bucket m e.1 = e.2 := by
  rw [bucket, lookup_of_mem h he, Option.getD_some]

theorem mem_keys_pushAll {m : List (κ × List α)} {es : List (κ × α)} {key : κ} :
    key ∈ (pushAll m es).map (·.1) ↔ key ∈ m.map (·.1) ∨ key ∈ es.map (·.1) := by
  induction es generalizing m with
  | nil => simp
  | cons e es ih =>
    rw [pushAll_cons, ih, pushTo_eq, mem_keys_setEntry, List.map_cons, List.mem_cons]
    tauto

/-- What one push adds to the items of all keys. -/
theorem flatMap_pushTo_perm (m : List (κ × List α)) (key : κ) (item : α) :
    List.Perm ((pushTo m key item).flatMap (·.2)) (m.flatMap (·.2) ++ [item]) := by
  induction m with
  | nil => exact .refl _
  | cons e m ih =>
    obtain ⟨k, items⟩ := e
    rw [pushTo_eq, bucket, lookup_cons_ite, setEntry]
    by_cases h : key = k
    · subst h
      simp only [if_true, Option.getD_some, List.flatMap_cons, List.append_assoc]
      exact List.perm_append_comm.append_left _
    · rw [if_neg h, if_neg (Ne.symm h)]
      simp only [List.flatMap_cons, List.append_assoc]
      exact ih.append_left _

/-- Every item pushed is at one key, once. -/
theorem flatMap_pushAll_perm (m : List (κ × List α)) (es : List (κ × α)) :
    List.Perm ((pushAll m es).flatMap (·.2)) (m.flatMap (·.2) ++ es.map (·.2)) := by
  induction es generalizing m with
  | nil => simp
  | cons e es ih =>
    rw [pushAll_cons]
    refine (ih _).trans ?_
    have := (flatMap_pushTo_perm m e.1 e.2).append_right (es.map (·.2))
    simpa using this

end Minikura
