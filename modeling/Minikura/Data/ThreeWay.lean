import Minikura.Data.OrderedMap

/-!
# Three-way merges

A writer that shares a map with others puts its entries into it again and again. What it put in
last time and does not put in now is taken out, and what others put in is kept.

## Main definitions

* `threeWay` — the merge of entries into a map.
* `mergeKeyed` — the same for a list whose elements know their keys.

## Main results

* `threeWay_eq_self`, `mergeKeyed_eq_self` — what is there already changes nothing.
* `lookup_threeWay_of_mem`, `find?_mergeKeyed_of_mem` — what was put in is there.
-/

namespace Minikura

variable {κ α : Type}

theorem keys_map_pair (key : α → κ) (l : List α) :
    (l.map fun a => (key a, a)).map (·.1) = l.map key := by
  rw [List.map_map]
  rfl

variable [DecidableEq κ]

/-! ## Entries -/

/-- Put entries into a map, and take out the others that were put in last time. -/
def threeWay (old last sent : List (κ × α)) : List (κ × α) :=
  setEntries (old.filter fun e => e.1 ∈ sent.map (·.1) ∨ e.1 ∉ last.map (·.1)) sent

section Entries

variable {m last es : List (κ × α)} {k : κ} {v : α} {e : κ × α}

theorem setEntry_eq_self (h : m.lookup k = some v) : setEntry m k v = m := by
  induction m with
  | nil => cases h
  | cons d m ih =>
    obtain ⟨l, w⟩ := d
    rw [lookup_cons_ite] at h
    by_cases hl : l = k
    · subst hl
      rw [if_pos rfl, Option.some.injEq] at h
      rw [setEntry, if_pos rfl, h]
    · rw [if_neg (Ne.symm hl)] at h
      rw [setEntry, if_neg hl, ih h]

theorem setEntries_eq_self (h : ∀ e ∈ es, m.lookup e.1 = some e.2) : setEntries m es = m := by
  induction es with
  | nil => rfl
  | cons e es ih =>
    obtain ⟨he, hes⟩ := List.forall_mem_cons.mp h
    rw [setEntries_cons, setEntry_eq_self he, ih hes]

theorem lookup_setEntries_of_mem (h : (es.map (·.1)).Nodup) (he : e ∈ es) :
    (setEntries m es).lookup e.1 = some e.2 := by
  have hnodup : (es.reverse.map (·.1)).Nodup := by
    rw [List.map_reverse]
    exact List.nodup_reverse.mpr h
  rw [lookup_setEntries, lookup_of_mem hnodup (List.mem_reverse.mpr he), Option.some_or]

theorem lookup_threeWay_of_mem (h : (es.map (·.1)).Nodup) (he : e ∈ es) :
    (threeWay m last es).lookup e.1 = some e.2 :=
  lookup_setEntries_of_mem h he

/-- Entries that are there already change nothing, as long as none is taken out. -/
theorem threeWay_eq_self (hlast : last.map (·.1) ⊆ es.map (·.1))
    (h : ∀ e ∈ es, m.lookup e.1 = some e.2) : threeWay m last es = m := by
  have hkeep : m.filter (fun e => e.1 ∈ es.map (·.1) ∨ e.1 ∉ last.map (·.1)) = m := by
    refine List.filter_eq_self.mpr fun e _ => decide_eq_true ?_
    exact or_iff_not_imp_right.mpr fun hmem => hlast (not_not.mp hmem)
  rw [threeWay, hkeep, setEntries_eq_self h]

/-- Putting in the same entries again changes nothing. -/
theorem threeWay_threeWay (h : (es.map (·.1)).Nodup) :
    threeWay (threeWay m last es) es es = threeWay m last es :=
  threeWay_eq_self (List.Subset.refl _) fun _ he => lookup_threeWay_of_mem h he

end Entries

/-! ## Elements with keys -/

/-- The three-way merge of lists whose elements know their keys. -/
def mergeKeyed (key : α → κ) (old last sent : List α) : List α :=
  (threeWay (old.map fun a => (key a, a)) (last.map fun a => (key a, a))
    (sent.map fun a => (key a, a))).map (·.2)

section Keyed

variable {key : α → κ} {old last sent : List α} {a b : α}

theorem key_of_mem_threeWay {e : κ × α} (h : e ∈ threeWay (old.map fun a => (key a, a))
      (last.map fun a => (key a, a)) (sent.map fun a => (key a, a))) :
    key e.2 = e.1 := by
  rcases mem_setEntries h with h | h
  · obtain ⟨a, -, rfl⟩ := List.mem_map.mp (List.mem_of_mem_filter h)
    rfl
  · obtain ⟨a, -, rfl⟩ := List.mem_map.mp h
    rfl

theorem find?_mergeKeyed_of_mem (h : (sent.map key).Nodup) (ha : a ∈ sent) :
    ((mergeKeyed key old last sent).find? fun b => key b = key a) = some a := by
  have hnodup : ((sent.map fun a => (key a, a)).map (·.1)).Nodup := by
    rwa [keys_map_pair]
  rw [mergeKeyed, find?_map_snd (fun _ => key_of_mem_threeWay)]
  exact lookup_threeWay_of_mem hnodup (List.mem_map.mpr ⟨a, ha, rfl⟩)

theorem mergeKeyed_eq_self (hlast : last.map key ⊆ sent.map key)
    (h : ∀ a ∈ sent, (old.find? fun b => key b = key a) = some a) :
    mergeKeyed key old last sent = old := by
  have hself : threeWay (old.map fun a => (key a, a)) (last.map fun a => (key a, a))
      (sent.map fun a => (key a, a)) = old.map fun a => (key a, a) := by
    refine threeWay_eq_self (by rwa [keys_map_pair, keys_map_pair]) fun e he => ?_
    obtain ⟨a, ha, rfl⟩ := List.mem_map.mp he
    exact (lookup_map_pair key id old (key a)).trans (by rw [h a ha]; rfl)
  rw [mergeKeyed, hself, List.map_map]
  exact List.map_id old

theorem mergeKeyed_mergeKeyed (h : (sent.map key).Nodup) :
    mergeKeyed key (mergeKeyed key old last sent) sent sent = mergeKeyed key old last sent :=
  mergeKeyed_eq_self (List.Subset.refl _) fun _ ha => find?_mergeKeyed_of_mem h ha

end Keyed

end Minikura
