import Mathlib.Data.List.Nodup

/-!
# Insertion-ordered maps

A list of entries in which a key keeps the place of its first insertion and the
value of its last. Both the entries of a JavaScript `Map` and a slice with an index
by name behave this way.

## Main results

* `lookup_setEntry`, `keys_setEntry` — what one insertion does to values and order.
* `lookup_setEntries`, `keys_setEntries`, `getElem?_setEntries` — what a list of insertions does.
* `setEntry_eq_set`, `setEntry_eq_append` — one insertion as a write to a slice.
* `find?_map_snd` — a map of values that know their keys, read without the keys.
-/

namespace Minikura

variable {κ α : Type} [DecidableEq κ]

/-- Overwrite the entry of a key, or add one at the end. -/
def setEntry (m : List (κ × α)) (k : κ) (v : α) : List (κ × α) :=
  match m with
  | [] => [(k, v)]
  | e :: m => if e.1 = k then (k, v) :: m else e :: setEntry m k v

def setEntries (m es : List (κ × α)) : List (κ × α) :=
  es.foldl (fun m e => setEntry m e.1 e.2) m

theorem lookup_cons_ite (k k' : κ) (v : α) (m : List (κ × α)) :
    ((k', v) :: m).lookup k = if k = k' then some v else m.lookup k := by
  by_cases h : k = k'
  · simp [h]
  · have hb : (k == k') = false := beq_false_of_ne h
    simp [List.lookup_cons, hb, h]

@[simp] theorem lookup_setEntry (m : List (κ × α)) (k k' : κ) (v : α) :
    (setEntry m k v).lookup k' = if k' = k then some v else m.lookup k' := by
  induction m with
  | nil => simp [setEntry, lookup_cons_ite]
  | cons e m ih =>
    obtain ⟨l, w⟩ := e
    by_cases hl : l = k
    · subst hl
      simp only [setEntry, if_true, lookup_cons_ite]
      by_cases hk : k' = l <;> simp [hk]
    · simp only [setEntry, hl, if_false, lookup_cons_ite, ih]
      by_cases hk : k' = k
      · have : k' ≠ l := fun h => hl (h.symm.trans hk)
        simp [hk, Ne.symm hl]
      · simp [hk]

theorem lookup_of_mem {m : List (κ × α)} {e : κ × α} (h : (m.map (·.1)).Nodup) (he : e ∈ m) :
    m.lookup e.1 = some e.2 := by
  induction m with
  | nil => cases he
  | cons d m ih =>
    obtain ⟨hd, hm⟩ := List.nodup_cons.mp h
    rw [show d :: m = (d.1, d.2) :: m from rfl, lookup_cons_ite]
    rcases List.mem_cons.mp he with rfl | he
    · rw [if_pos rfl]
    · rw [if_neg, ih hm he]
      exact fun hk => hd (List.mem_map.mpr ⟨e, he, hk⟩)

theorem mem_of_lookup {m : List (κ × α)} {k : κ} {v : α} (h : m.lookup k = some v) :
    (k, v) ∈ m := by
  obtain ⟨before, after, rfl, -⟩ := List.lookup_eq_some_iff.mp h
  simp

theorem lookup_isSome_iff_mem_keys {m : List (κ × α)} {k : κ} :
    (m.lookup k).isSome ↔ k ∈ m.map (·.1) := by
  simp only [List.lookup_isSome_iff, List.mem_map, beq_iff_eq, @eq_comm κ k]

theorem lookup_filter_ne (m : List (κ × α)) (k k' : κ) :
    (m.filter (·.1 ≠ k)).lookup k' = if k' = k then none else m.lookup k' := by
  induction m with
  | nil => simp
  | cons e m ih =>
    obtain ⟨l, w⟩ := e
    rw [List.filter_cons]
    split_ifs with hl hk hk
    · rw [lookup_cons_ite, ih, if_pos hk, if_neg]
      rintro rfl
      exact of_decide_eq_true hl hk
    · rw [lookup_cons_ite, lookup_cons_ite, ih, if_neg hk]
    · rw [ih, if_pos hk]
    · have hl' : k' ≠ l := fun h => hk (h.trans (by simpa using hl))
      rw [ih, if_neg hk, lookup_cons_ite, if_neg hl']

/-- A new key goes to the end, an old one stays where it is. -/
theorem keys_setEntry (m : List (κ × α)) (k : κ) (v : α) :
    (setEntry m k v).map (·.1) =
      if k ∈ m.map (·.1) then m.map (·.1) else m.map (·.1) ++ [k] := by
  induction m with
  | nil => simp [setEntry]
  | cons e m ih =>
    by_cases he : e.1 = k
    · simp [setEntry, he]
    · have hk : k ≠ e.1 := Ne.symm he
      rw [setEntry, if_neg he, List.map_cons, ih]
      by_cases hm : k ∈ m.map (·.1)
      · simp only [hm, if_true, List.map_cons, List.mem_cons, or_true]
      · simp only [hm, if_false, List.map_cons, List.mem_cons, hk, or_self,
          List.cons_append]

theorem mem_keys_setEntry {m : List (κ × α)} {k k' : κ} {v : α} :
    k' ∈ (setEntry m k v).map (·.1) ↔ k' = k ∨ k' ∈ m.map (·.1) := by
  rw [keys_setEntry]
  split_ifs with h
  · exact ⟨.inr, fun h' => h'.elim (fun e => e ▸ h) id⟩
  · rw [List.mem_append, List.mem_singleton, or_comm]

theorem nodup_setEntry {m : List (κ × α)} (k : κ) (v : α) (h : (m.map (·.1)).Nodup) :
    ((setEntry m k v).map (·.1)).Nodup := by
  rw [keys_setEntry]
  split_ifs with hk
  · exact h
  · rw [List.nodup_append]
    refine ⟨h, by simp, fun a ha b hb => ?_⟩
    rintro rfl
    exact hk (List.mem_singleton.mp hb ▸ ha)

theorem setEntry_eq_append {m : List (κ × α)} {k : κ} (v : α) (h : k ∉ m.map (·.1)) :
    setEntry m k v = m ++ [(k, v)] := by
  induction m with
  | nil => rfl
  | cons d m ih =>
    rw [List.map_cons, List.mem_cons, not_or] at h
    rw [setEntry, if_neg (Ne.symm h.1), ih h.2, List.cons_append]

@[simp] theorem setEntries_nil (m : List (κ × α)) : setEntries m [] = m := rfl

@[simp] theorem setEntries_cons (m : List (κ × α)) (e : κ × α) (es : List (κ × α)) :
    setEntries m (e :: es) = setEntries (setEntry m e.1 e.2) es := rfl

theorem nodup_setEntries {m : List (κ × α)} (es : List (κ × α))
    (h : (m.map (·.1)).Nodup) : ((setEntries m es).map (·.1)).Nodup := by
  induction es generalizing m with
  | nil => exact h
  | cons e es ih => exact ih (nodup_setEntry e.1 e.2 h)

/-- The last insertion of a key decides its value. -/
theorem lookup_setEntries (m es : List (κ × α)) (k : κ) :
    (setEntries m es).lookup k = (es.reverse.lookup k).or (m.lookup k) := by
  induction es generalizing m with
  | nil => simp
  | cons e es ih =>
    rw [setEntries_cons, ih, lookup_setEntry, List.reverse_cons, List.lookup_append]
    obtain ⟨l, w⟩ := e
    rw [lookup_cons_ite]
    by_cases hk : k = l <;> cases List.lookup k es.reverse <;> simp [hk]

/-- Entries with distinct keys make the map they spell. -/
theorem setEntries_of_nodup {m es : List (κ × α)} (h : ((m ++ es).map (·.1)).Nodup) :
    setEntries m es = m ++ es := by
  induction es generalizing m with
  | nil => simp
  | cons e es ih =>
    have hk : e.1 ∉ m.map (·.1) := by
      rw [List.map_append, List.map_cons] at h
      exact fun hm => (List.nodup_append.mp h).2.2 _ hm _ (by simp) rfl
    rw [setEntries_cons, setEntry_eq_append e.2 hk, ih (by simpa using h)]
    simp

theorem mem_setEntry {m : List (κ × α)} {k : κ} {v : α} {e : κ × α} (h : e ∈ setEntry m k v) :
    e = (k, v) ∨ e ∈ m := by
  induction m with
  | nil => exact .inl (List.mem_singleton.mp h)
  | cons d m ih =>
    rw [setEntry] at h
    split_ifs at h with hd
    · exact (List.mem_cons.mp h).imp_right (List.mem_cons_of_mem d)
    · rcases List.mem_cons.mp h with rfl | h
      · exact .inr (List.mem_cons_self ..)
      · exact (ih h).imp_right (List.mem_cons_of_mem d)

theorem mem_setEntries {m es : List (κ × α)} {e : κ × α} (h : e ∈ setEntries m es) :
    e ∈ m ∨ e ∈ es := by
  induction es generalizing m with
  | nil => exact .inl h
  | cons d es ih =>
    rcases ih h with h | h
    · exact (mem_setEntry h).elim (fun h => .inr (h ▸ List.mem_cons_self ..)) .inl
    · exact .inr (List.mem_cons_of_mem d h)

theorem mem_keys_setEntries {m es : List (κ × α)} {k : κ} :
    k ∈ (setEntries m es).map (·.1) ↔ k ∈ m.map (·.1) ∨ k ∈ es.map (·.1) := by
  induction es generalizing m with
  | nil => simp
  | cons e es ih =>
    rw [setEntries_cons, ih, mem_keys_setEntry, List.map_cons, List.mem_cons]
    tauto

/-- New keys follow in the order in which they first occur. -/
theorem keys_setEntries (m es : List (κ × α)) :
    (setEntries m es).map (·.1) =
      m.map (·.1) ++ ((es.map (·.1)).filter (· ∉ m.map (·.1))).eraseDups := by
  induction es generalizing m with
  | nil => simp
  | cons e es ih =>
    rw [setEntries_cons, ih, keys_setEntry, List.map_cons, List.filter_cons]
    by_cases hk : e.1 ∈ m.map (·.1)
    · rw [if_pos hk, if_neg (by simpa using hk)]
    · have hnew : ((es.map (·.1)).filter fun k => k ∉ m.map (·.1) ++ [e.1]) =
          ((es.map (·.1)).filter fun k => k ∉ m.map (·.1)).filter fun k => !k == e.1 := by
        rw [List.filter_filter]
        refine List.filter_congr fun k _ => ?_
        rw [Bool.eq_iff_iff]
        simp [and_comm]
      rw [if_neg hk, if_pos (by simpa using hk), List.eraseDups_cons, hnew, List.append_assoc,
        List.singleton_append]

/-- What is not overwritten stays where it is. -/
theorem getElem?_setEntry {m : List (κ × α)} {k : κ} {e : κ × α} {i : ℕ} (v : α)
    (h : m[i]? = some e) (hk : e.1 ≠ k) : (setEntry m k v)[i]? = some e := by
  induction m generalizing i with
  | nil => simp at h
  | cons d m ih =>
    rw [setEntry]
    cases i with
    | zero =>
      obtain rfl : d = e := by simpa using h
      rw [if_neg hk, List.getElem?_cons_zero]
    | succ i =>
      rw [List.getElem?_cons_succ] at h
      split_ifs
      · exact h
      · exact ih h

theorem getElem?_setEntries {m es : List (κ × α)} {e : κ × α} {i : ℕ} (h : m[i]? = some e)
    (hes : ∀ d ∈ es, e.1 ≠ d.1) : (setEntries m es)[i]? = some e := by
  induction es generalizing m with
  | nil => exact h
  | cons d es ih =>
    obtain ⟨hd, hes⟩ := List.forall_mem_cons.mp hes
    exact ih (getElem?_setEntry d.2 h hd) hes

/-- An insertion at the place that an index gives. -/
theorem setEntry_eq_set {m : List (κ × α)} {k : κ} {i : ℕ} (v : α)
    (h : m.findIdx? (fun e => e.1 = k) = some i) : setEntry m k v = m.set i (k, v) := by
  induction m generalizing i with
  | nil => simp at h
  | cons d m ih =>
    rw [List.findIdx?_cons] at h
    by_cases hd : d.1 = k
    · obtain rfl : 0 = i := by simpa [hd] using h
      rw [setEntry, if_pos hd, List.set_cons_zero]
    · simp only [hd, decide_false, Bool.false_eq_true, if_false] at h
      obtain ⟨j, hj, rfl⟩ := Option.map_eq_some_iff.mp h
      rw [setEntry, if_neg hd, ih hj, List.set_cons_succ]

/-! ## Values with keys of their own -/

variable {β : Type}

theorem lookup_map_pair (key : α → κ) (f : α → β) (l : List α) (k : κ) :
    (l.map fun a => (key a, f a)).lookup k = (l.find? fun a => key a = k).map f := by
  induction l with
  | nil => rfl
  | cons a l ih =>
    rw [List.map_cons, lookup_cons_ite, ih, List.find?_cons]
    by_cases h : k = key a
    · simp [h]
    · simp [h, Ne.symm h]

theorem find?_map_snd {key : α → κ} {m : List (κ × α)} (h : ∀ e ∈ m, key e.2 = e.1) (k : κ) :
    ((m.map (·.2)).find? fun a => key a = k) = m.lookup k := by
  have hpairs : m = (m.map (·.2)).map fun a => (key a, a) := by
    rw [List.map_map]
    exact (List.map_id m).symm.trans
      (List.map_congr_left fun e he => Prod.ext (h e he).symm rfl)
  conv => rhs; rw [hpairs]
  rw [lookup_map_pair, Option.map_id']

/-- With distinct keys it does not matter from which end a value is searched. -/
theorem find?_reverse_of_nodup {key : α → κ} {l : List α} (h : (l.map key).Nodup) (k : κ) :
    (l.reverse.find? fun a => key a = k) = l.find? fun a => key a = k := by
  induction l with
  | nil => rfl
  | cons a l ih =>
    obtain ⟨ha, hl⟩ := List.nodup_cons.mp h
    rw [List.reverse_cons, List.find?_append, ih hl, List.find?_cons]
    by_cases hk : key a = k
    · have hnone : (l.find? fun a => key a = k) = none := by
        refine List.find?_eq_none.mpr fun b hb hbk => ha ?_
        rw [hk, ← of_decide_eq_true hbk]
        exact List.mem_map_of_mem hb
      simp [hk, hnone]
    · simp [hk]

theorem find?_of_mem {key : α → κ} {l : List α} {a : α} (h : (l.map key).Nodup) (ha : a ∈ l) :
    (l.find? fun b => key b = key a) = some a := by
  induction l with
  | nil => cases ha
  | cons b l ih =>
    obtain ⟨hb, hl⟩ := List.nodup_cons.mp h
    rcases List.mem_cons.mp ha with rfl | ha
    · simp
    · have hne : key b ≠ key a := fun he => hb (he ▸ List.mem_map_of_mem ha)
      rw [List.find?_cons_of_neg (by simpa using hne)]
      exact ih hl ha

theorem filter_eq_toList_find? {key : α → κ} {l : List α} (h : (l.map key).Nodup) (k : κ) :
    (l.filter fun a => key a = k) = (l.find? fun a => key a = k).toList := by
  induction l with
  | nil => rfl
  | cons a l ih =>
    obtain ⟨ha, hl⟩ := List.nodup_cons.mp h
    by_cases hk : key a = k
    · have hnone : (l.filter fun a => key a = k) = [] := by
        refine List.filter_eq_nil_iff.mpr fun b hb hbk => ha ?_
        rw [hk, ← of_decide_eq_true hbk]
        exact List.mem_map_of_mem hb
      simp [hk, hnone]
    · rw [List.filter_cons_of_neg (by simpa using hk), ih hl,
        List.find?_cons_of_neg (by simpa using hk)]

end Minikura
