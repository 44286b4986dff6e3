import Mathlib.Algebra.Order.BigOperators.Group.List
import Mathlib.Algebra.Order.Group.Nat
import Minikura.Data.OrderedMap
import Minikura.Data.Tree

/-!
# Updating twice

An update of a map computes the new value of a key from the one it has. What a list of updates
does to a key depends on that key alone, so the list does nothing the second time as soon as it
does nothing the second time at each key. Writes below paths of keys are such updates, of the
first key of their paths.

## Main definitions

* `update`, `updates` — updates of a map.
* `updateAt` — what they do to one key.
* `Tree.puts` — writes below paths.

## Main results

* `updates_updates` — updates that settle every key settle the map.
* `Tree.puts_puts` — writes done twice are writes done once.
-/

namespace Minikura

variable {κ α : Type} [DecidableEq κ]

/-! ## Updates of a map -/

def update (m : List (κ × α)) (k : κ) (f : Option α → α) : List (κ × α) :=
  setEntry m k (f (m.lookup k))

def updates (m : List (κ × α)) (ops : List (κ × (Option α → α))) : List (κ × α) :=
  ops.foldl (fun m op => update m op.1 op.2) m

/-- What the updates make of the value of a key. -/
def updateAt (ops : List (κ × (Option α → α))) (k : κ) (o : Option α) : Option α :=
  ops.foldl (fun o op => if op.1 = k then some (op.2 o) else o) o

/-- The updates of the other keys. -/
def without (ops : List (κ × (Option α → α))) (k : κ) : List (κ × (Option α → α)) :=
  ops.filter (·.1 ≠ k)

section Updates

variable {m : List (κ × α)} {op : κ × (Option α → α)} {ops : List (κ × (Option α → α))} {k l : κ}

@[simp] theorem updates_nil : updates m [] = m := rfl

@[simp] theorem updates_cons : updates m (op :: ops) = updates (update m op.1 op.2) ops := rfl

theorem updateAt_cons (o : Option α) : updateAt (op :: ops) k o =
    updateAt ops k (if op.1 = k then some (op.2 o) else o) := rfl

theorem updateAt_of_notMem (h : ∀ op ∈ ops, op.1 ≠ k) (o : Option α) : updateAt ops k o = o := by
  induction ops generalizing o with
  | nil => rfl
  | cons op ops ih =>
    obtain ⟨hop, hops⟩ := List.forall_mem_cons.mp h
    rw [updateAt_cons, if_neg hop, ih hops]

theorem updateAt_without (o : Option α) :
    updateAt (without ops k) l o = if l = k then o else updateAt ops l o := by
  split_ifs with hl
  · subst hl
    exact updateAt_of_notMem (fun op hop => by simpa using (List.mem_filter.mp hop).2) o
  · induction ops generalizing o with
    | nil => rfl
    | cons op ops ih =>
      rw [without, List.filter_cons]
      split_ifs with hop
      · rw [updateAt_cons, updateAt_cons]
        exact ih _
      · have hkey : op.1 = k := by simpa using hop
        rw [updateAt_cons, if_neg fun h => hl (h.symm.trans hkey)]
        exact ih o

theorem exists_updateAt_some (ops : List (κ × (Option α → α))) (k : κ) (v : α) :
    ∃ w, updateAt ops k (some v) = some w := by
  induction ops generalizing v with
  | nil => exact ⟨v, rfl⟩
  | cons op ops ih =>
    rw [updateAt_cons]
    split_ifs
    exacts [ih _, ih v]

/-- The first entry goes its own way, and the rest sees the updates of the other keys. -/
theorem updates_entry {v w : α} (h : updateAt ops k (some v) = some w) :
    updates ((k, v) :: m) ops = (k, w) :: updates m (without ops k) := by
  induction ops generalizing v m with
  | nil => rw [← Option.some.inj h, without, List.filter_nil, updates_nil, updates_nil]
  | cons op ops ih =>
    obtain ⟨l, f⟩ := op
    rw [updateAt_cons] at h
    rw [updates_cons, update, without, List.filter_cons, setEntry, lookup_cons_ite]
    by_cases hl : l = k
    · subst hl
      simp only [if_true] at h ⊢
      simpa [without] using ih h
    · simp only [hl, if_false, Ne.symm hl] at h ⊢
      simpa [hl, without, update] using ih h

theorem length_without_le (ops : List (κ × (Option α → α))) (k : κ) :
    (without ops k).length ≤ ops.length :=
  List.length_filter_le _ _

/-- What is settled at every key is settled at every key but one. -/
theorem settled_without (h : ∀ l o, updateAt ops l (updateAt ops l o) = updateAt ops l o) (k l : κ)
    (o : Option α) : updateAt (without ops k) l (updateAt (without ops k) l o) =
      updateAt (without ops k) l o := by
  simp only [updateAt_without]
  split_ifs
  exacts [rfl, h l o]

theorem updates_updates_nil (h : ∀ k o, updateAt ops k (updateAt ops k o) = updateAt ops k o) :
    updates (updates ([] : List (κ × α)) ops) ops = updates [] ops := by
  generalize hn : ops.length = n
  induction n using Nat.strongRecOn generalizing ops with
  | _ n ih =>
    cases ops with
    | nil => rfl
    | cons op rest =>
      obtain ⟨k, f⟩ := op
      obtain ⟨w, hw⟩ := exists_updateAt_some rest k (f none)
      have hnone : updateAt ((k, f) :: rest) k none = some w := by
        rw [updateAt_cons, if_pos rfl, hw]
      have hsettled : updateAt ((k, f) :: rest) k (some w) = some w := by
        rw [← hnone, h]
      have hrest : without ((k, f) :: rest) k = without rest k := by simp [without]
      have hfirst : updates [] ((k, f) :: rest) = (k, w) :: updates [] (without rest k) := by
        rw [updates_cons, update, List.lookup_nil, setEntry, updates_entry hw]
      have hlater := settled_without h k
      rw [hrest] at hlater
      rw [hfirst, updates_entry hsettled, hrest]
      have hlength := length_without_le rest k
      rw [ih _ (by rw [← hn, List.length_cons]; omega) hlater rfl]

/-- Updates that do nothing more to any key the second time leave the map as it is. -/
theorem updates_updates (h : ∀ k o, updateAt ops k (updateAt ops k o) = updateAt ops k o) :
    updates (updates m ops) ops = updates m ops := by
  induction m generalizing ops with
  | nil => exact updates_updates_nil h
  | cons e m ih =>
    obtain ⟨k, v⟩ := e
    obtain ⟨w, hw⟩ := exists_updateAt_some ops k v
    have hsettled : updateAt ops k (some w) = some w := by rw [← hw, h]
    rw [updates_entry hw, updates_entry hsettled, ih (settled_without h k)]

end Updates

/-! ## Writes below paths -/

namespace Tree

/-- Write values below paths, one after the other. -/
def puts (data : List (κ × Tree κ α)) (ws : List (List κ × Tree κ α)) : List (κ × Tree κ α) :=
  ws.foldl (fun data w => put data w.1 w.2) data

/-- What a write with this rest of its path makes of the value of its first key. -/
def putBelow (keys : List κ) (value : Tree κ α) (o : Option (Tree κ α)) : Tree κ α :=
  if keys = [] then value else .map (put (entries o) keys value)

/-- A write as an update of the first key of its path. -/
def putUpdate (w : List κ × Tree κ α) : Option (κ × (Option (Tree κ α) → Tree κ α)) :=
  match w.1 with
  | [] => none
  | k :: keys => some (k, putBelow keys w.2)

/-- What is left to write below a key. -/
def restBelow (k : κ) (w : List κ × Tree κ α) : Option (List κ × Tree κ α) :=
  match w.1 with
  | [] => none
  | l :: keys => if l = k then some (keys, w.2) else none

section Puts

variable {data : List (κ × Tree κ α)} {ws : List (List κ × Tree κ α)} {k : κ}

theorem put_eq_update (k : κ) (keys : List κ) (value : Tree κ α) :
    put data (k :: keys) value = update data k (putBelow keys value) := by
  cases keys with
  | nil => rfl
  | cons l keys => rw [put_cons data k value (by simp), update, putBelow, if_neg (by simp)]

theorem puts_eq_updates : puts data ws = updates data (ws.filterMap putUpdate) := by
  induction ws generalizing data with
  | nil => rfl
  | cons w ws ih =>
    obtain ⟨_ | ⟨k, keys⟩, value⟩ := w
    · exact ih
    · exact (congrArg (puts · ws) (put_eq_update k keys value)).trans ih

/-- The writes below a key, done one after the other. -/
def putsBelow (ws : List (List κ × Tree κ α)) (o : Option (Tree κ α)) : Option (Tree κ α) :=
  ws.foldl (fun o w => some (putBelow w.1 w.2 o)) o

theorem updateAt_putUpdate (o : Option (Tree κ α)) :
    updateAt (ws.filterMap putUpdate) k o = putsBelow (ws.filterMap (restBelow k)) o := by
  induction ws generalizing o with
  | nil => rfl
  | cons w ws ih =>
    obtain ⟨_ | ⟨l, keys⟩, value⟩ := w
    · exact ih o
    · have hrest : restBelow k (l :: keys, value) = if l = k then some (keys, value) else none :=
        rfl
      rw [List.filterMap_cons_some (by rfl), updateAt_cons, List.filterMap_cons, hrest]
      split_ifs
      exacts [ih _, ih o]

/-- Once the key itself is written, what it had before is forgotten. -/
theorem putsBelow_congr (h : ∃ w ∈ ws, w.1 = []) (o o' : Option (Tree κ α)) :
    putsBelow ws o = putsBelow ws o' := by
  induction ws generalizing o o' with
  | nil => simp at h
  | cons w ws ih =>
    by_cases hw : w.1 = []
    · simp [putsBelow, putBelow, hw]
    · obtain ⟨w', hmem, hnil⟩ := h
      rcases List.mem_cons.mp hmem with rfl | hmem
      · exact absurd hnil hw
      · exact ih ⟨w', hmem, hnil⟩ _ _

/-- As long as the key itself is not written, it stays a mapping. -/
theorem putsBelow_map (h : ∀ w ∈ ws, w.1 ≠ []) :
    putsBelow ws (some (.map data)) = some (.map (puts data ws)) := by
  induction ws generalizing data with
  | nil => rfl
  | cons w ws ih =>
    obtain ⟨hw, hws⟩ := List.forall_mem_cons.mp h
    have hfirst : putBelow w.1 w.2 (some (.map data)) = .map (put data w.1 w.2) := if_neg hw
    calc putsBelow (w :: ws) (some (.map data))
        = putsBelow ws (some (putBelow w.1 w.2 (some (.map data)))) := rfl
      _ = some (.map (puts data (w :: ws))) := by rw [hfirst, ih hws]; rfl

theorem putsBelow_eq_map (h : ∀ w ∈ ws, w.1 ≠ []) (hne : ws ≠ []) (o : Option (Tree κ α)) :
    putsBelow ws o = some (.map (puts (entries o) ws)) := by
  cases ws with
  | nil => exact absurd rfl hne
  | cons w ws =>
    obtain ⟨hw, hws⟩ := List.forall_mem_cons.mp h
    have hfirst : putBelow w.1 w.2 o = .map (put (entries o) w.1 w.2) := if_neg hw
    calc putsBelow (w :: ws) o
        = putsBelow ws (some (putBelow w.1 w.2 o)) := rfl
      _ = some (.map (puts (entries o) (w :: ws))) := by rw [hfirst, putsBelow_map hws]; rfl

theorem length_le_of_mem_restBelow {n : ℕ} (h : ∀ w ∈ ws, w.1.length ≤ n + 1) :
    ∀ w ∈ ws.filterMap (restBelow k), w.1.length ≤ n := by
  intro w hw
  obtain ⟨⟨path, value⟩, hmem, hbelow⟩ := List.mem_filterMap.mp hw
  cases path with
  | nil => cases hbelow
  | cons l keys =>
    have hlength := h _ hmem
    simp only [restBelow, Option.ite_none_right_eq_some, Option.some.injEq] at hbelow
    rw [← hbelow.2]
    simpa using hlength

/-- Writing everything a second time changes nothing, whatever the paths. -/
theorem puts_puts : puts (puts data ws) ws = puts data ws := by
  -- on the length of the longest path
  obtain ⟨n, hn⟩ : ∃ n, ∀ w ∈ ws, w.1.length ≤ n :=
    ⟨(ws.map (·.1.length)).sum, fun w hw => List.le_sum_of_mem (List.mem_map_of_mem hw)⟩
  induction n generalizing data ws with
  | zero =>
    have hnone : ws.filterMap putUpdate = [] := by
      refine List.filterMap_eq_nil_iff.mpr fun w hw => ?_
      rw [putUpdate, List.length_eq_zero_iff.mp (Nat.le_zero.mp (hn w hw))]
    rw [puts_eq_updates, puts_eq_updates, hnone, updates_nil]
  | succ n ih =>
    rw [puts_eq_updates, puts_eq_updates]
    refine updates_updates fun k o => ?_
    rw [updateAt_putUpdate, updateAt_putUpdate]
    by_cases hset : ∃ w ∈ ws.filterMap (restBelow k), w.1 = []
    · exact putsBelow_congr hset _ _
    · push Not at hset
      rcases eq_or_ne (ws.filterMap (restBelow k)) [] with hnil | hne
      · rw [hnil]
        rfl
      · rw [putsBelow_eq_map hset hne o, putsBelow_map hset, ih (length_le_of_mem_restBelow hn)]

end Puts

end Tree

end Minikura
