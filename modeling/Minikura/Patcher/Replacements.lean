import Minikura.Patcher.Lines

/-!
# What replacements do

Gathering the edits of a patch goes on base key by base key. Writing the replacements into a
document leaves what is apart from their paths, as long as no path runs through a list.

## Main results

* `gather_lookup`, `exists_gather` — the replacement of a base key, edit by edit.
* `length_setItems`, `lookup_setItems` — the items of a list that edits index.
* `get_updateYaml_path`, `get_updateYaml_apart` — at and below the paths, and apart from them.
-/

namespace Minikura.Patcher

/-! ## Gathering -/

/-- The edits of one base key in turn. -/
def runEdits : Option Replacement → List Edit → Option (Option Replacement)
  | r, [] => some r
  | r, e :: edits => (e.apply r).bind fun r' => runEdits (some r') edits

section Gather

variable {replacements replacements' : List (Text × Replacement)} {edits : List Edit}

theorem lookup_setEntry_text (replacements : List (Text × Replacement)) (base base' : Text)
    (r : Replacement) : (setEntry replacements base r).lookup base' =
      if base' = base then some r else replacements.lookup base' := by
  have hbeq : (List.instBEq : BEq Text) = instBEqOfDecidableEq := lawful_beq_subsingleton _ _
  rw [hbeq]
  exact lookup_setEntry replacements base base' r

theorem gather_cons_eq_some {e : Edit} :
    gather replacements (e :: edits) = some replacements' ↔
      ∃ r, e.apply (replacements.lookup e.baseKey) = some r ∧
        gather (setEntry replacements e.baseKey r) edits = some replacements' := by
  rw [gather, Option.bind_eq_bind, Option.bind_eq_some_iff]

theorem gather_lookup (h : gather replacements edits = some replacements') (base : Text) :
    runEdits (replacements.lookup base) (edits.filter (·.baseKey = base)) =
      some (replacements'.lookup base) := by
  induction edits generalizing replacements with
  | nil => rw [Option.some.inj h]; rfl
  | cons e edits ih =>
    obtain ⟨r, hr, hrest⟩ := gather_cons_eq_some.mp h
    have hrun := ih hrest
    rw [lookup_setEntry_text] at hrun
    by_cases hbase : e.baseKey = base
    · subst hbase
      rw [List.filter_cons_of_pos (by simp), runEdits, hr]
      simpa using hrun
    · rw [List.filter_cons_of_neg (by simpa using hbase)]
      rwa [if_neg (Ne.symm hbase)] at hrun

theorem exists_gather (h : ∀ base, ∃ r,
    runEdits (replacements.lookup base) (edits.filter (·.baseKey = base)) = some r) :
    ∃ replacements', gather replacements edits = some replacements' := by
  induction edits generalizing replacements with
  | nil => exact ⟨replacements, rfl⟩
  | cons e edits ih =>
    obtain ⟨r₀, hr₀⟩ := h e.baseKey
    rw [List.filter_cons_of_pos (by simp), runEdits, Option.bind_eq_some_iff] at hr₀
    obtain ⟨r, hr, hrun⟩ := hr₀
    have hrest : ∀ base, ∃ r', runEdits ((setEntry replacements e.baseKey r).lookup base)
        (edits.filter (·.baseKey = base)) = some r' := by
      intro base
      rw [lookup_setEntry_text]
      split_ifs with hbase
      · subst hbase
        exact ⟨r₀, hrun⟩
      · obtain ⟨r', hr'⟩ := h base
        rw [List.filter_cons_of_neg (by simpa using Ne.symm hbase)] at hr'
        exact ⟨r', hr'⟩
    obtain ⟨replacements', hgather⟩ := ih hrest
    exact ⟨replacements', gather_cons_eq_some.mpr ⟨r, hr, hgather⟩⟩

theorem mem_keys_gather (h : gather replacements edits = some replacements') (base : Text) :
    base ∈ replacements'.map (·.1) ↔
      base ∈ replacements.map (·.1) ∨ ∃ e ∈ edits, e.baseKey = base := by
  induction edits generalizing replacements with
  | nil => rw [Option.some.inj h]; simp
  | cons e edits ih =>
    obtain ⟨r, -, hrest⟩ := gather_cons_eq_some.mp h
    rw [ih hrest, mem_keys_setEntry]
    simp only [List.mem_cons, exists_eq_or_imp]
    grind

theorem nodup_gather (h : gather replacements edits = some replacements')
    (hnodup : (replacements.map (·.1)).Nodup) : (replacements'.map (·.1)).Nodup := by
  induction edits generalizing replacements with
  | nil => rwa [← Option.some.inj h]
  | cons e edits ih =>
    obtain ⟨r, -, hrest⟩ := gather_cons_eq_some.mp h
    exact ih hrest (nodup_setEntry _ _ hnodup)

end Gather

theorem runEdits_append (r : Option Replacement) (edits edits' : List Edit) :
    runEdits r (edits ++ edits') = (runEdits r edits).bind (runEdits · edits') := by
  induction edits generalizing r with
  | nil => rfl
  | cons e edits ih =>
    rw [List.cons_append, runEdits, runEdits]
    cases e.apply r with
    | none => rfl
    | some r' => exact ih (some r')

/-! ## Items -/

section Items

variable {items : List Entries} {edits : List Edit} {e : Edit} {i j : Nat} {σ : Scalar}

/-- The mapping at an index, empty where there is none. -/
def itemAt (items : List Entries) (i : Nat) : Entries := items[i]?.getD []

def setItems (items : List Entries) (edits : List Edit) : List Entries :=
  edits.foldl (fun items e => setItem items (e.index.getD 0) e.subKey e.value) items

theorem get_items (items : List Entries) (i : Nat) (loc : Location) :
    (Tree.list (items.map .map) : Yaml).get (.index i :: loc) =
      if i < items.length then (Tree.map (itemAt items i)).get loc else none := by
  rw [Tree.get_list_index, List.getElem?_map, itemAt]
  split_ifs with hi
  · rw [List.getElem?_eq_getElem hi]
    rfl
  · rw [List.getElem?_eq_none (by omega)]
    rfl

theorem length_setItem (items : List Entries) (i : Nat) (key : Text) (value : Yaml) :
    (setItem items i key value).length = max items.length (i + 1) := by
  rw [setItem, List.length_modify, List.length_append, List.length_replicate]
  omega

theorem itemAt_setItem (items : List Entries) (i j : Nat) (key : Text) (value : Yaml) :
    itemAt (setItem items i key value) j =
      if j = i then setEntry (itemAt items i) (.str key) value else itemAt items j := by
  have hfill : ∀ n j, itemAt (items ++ List.replicate n []) j = itemAt items j := by
    intro n j
    simp only [itemAt, List.getElem?_append, List.getElem?_replicate]
    grind
  have hlt : i < (items ++ List.replicate (i + 1 - items.length) []).length := by
    rw [List.length_append, List.length_replicate]
    omega
  rw [← hfill (i + 1 - items.length) i, ← hfill (i + 1 - items.length) j, itemAt, setItem,
    List.getElem?_modify]
  split_ifs with hij hji hji
  · subst hij
    rw [itemAt, List.getElem?_eq_getElem hlt]
    rfl
  · exact absurd hij.symm hji
  · exact absurd hji.symm hij
  · rw [id_map']
    rfl

theorem lt_length_setItems : j < (setItems items edits).length ↔
    j < items.length ∨ ∃ e ∈ edits, j ≤ e.index.getD 0 := by
  induction edits generalizing items with
  | nil => simp [setItems]
  | cons e edits ih =>
    rw [setItems, List.foldl_cons, ← setItems, ih, length_setItem]
    simp only [List.mem_cons, exists_eq_or_imp]
    grind

/-- What no edit sets stays as it was. -/
theorem lookup_setItems (h : ∀ e ∈ edits, e.index.getD 0 = i → Scalar.str e.subKey ≠ σ) :
    (itemAt (setItems items edits) i).lookup σ = (itemAt items i).lookup σ := by
  induction edits generalizing items with
  | nil => rfl
  | cons e edits ih =>
    rw [setItems, List.foldl_cons, ← setItems, ih fun e he => h e (by simp [he]), itemAt_setItem]
    split_ifs with hi
    · have hne : σ ≠ .str e.subKey := Ne.symm (h e (by simp) hi.symm)
      rw [lookup_setEntry, if_neg hne, hi]
    · rfl

theorem itemAt_setItems_of_ne (h : ∀ e ∈ edits, e.index.getD 0 ≠ i) :
    itemAt (setItems items edits) i = itemAt items i := by
  induction edits generalizing items with
  | nil => rfl
  | cons e edits ih =>
    rw [setItems, List.foldl_cons, ← setItems, ih fun e he => h e (by simp [he]), itemAt_setItem,
      if_neg (Ne.symm (h e (by simp)))]

/-- The last edit of a key decides it. -/
theorem lookup_setItems_last {edits' : List Edit}
    (h : ∀ e' ∈ edits', e'.index.getD 0 = e.index.getD 0 → e'.subKey ≠ e.subKey) :
    (itemAt (setItems items (edits ++ e :: edits')) (e.index.getD 0)).lookup (.str e.subKey) =
      some e.value := by
  have hsplit : setItems items (edits ++ e :: edits') = setItems
      (setItem (setItems items edits) (e.index.getD 0) e.subKey e.value) edits' := by
    simp [setItems]
  rw [hsplit, lookup_setItems, itemAt_setItem, if_pos rfl, lookup_setEntry, if_pos rfl]
  exact fun e' he' hi hkey => h e' he' hi (Scalar.str.inj hkey)

theorem runEdits_array (h : ∀ e ∈ edits, e.index.isSome) :
    runEdits (some (.array [] items)) edits = some (some (.array [] (setItems items edits))) := by
  induction edits generalizing items with
  | nil => rfl
  | cons e edits ih =>
    obtain ⟨i, hi⟩ := Option.isSome_iff_exists.mp (h e (by simp))
    simp only [runEdits, Edit.apply, hi, setIndexed, List.length_nil, Nat.not_lt_zero, if_false,
      Nat.sub_zero, Option.bind_some]
    rw [ih fun e he => h e (by simp [he]), setItems, setItems, List.foldl_cons, hi]
    rfl

/-- A base key that only indexed lines have. -/
theorem runEdits_indexed (h : ∀ e ∈ edits, e.index.isSome) (hne : edits ≠ []) :
    runEdits none edits = some (some (.array [] (setItems [] edits))) := by
  obtain ⟨e, edits, rfl⟩ := List.exists_cons_of_ne_nil hne
  obtain ⟨i, hi⟩ := Option.isSome_iff_exists.mp (h e (by simp))
  simp only [runEdits, Edit.apply, hi, setIndexed, Option.bind_some]
  rw [runEdits_array fun e he => h e (by simp [he]), setItems, setItems, List.foldl_cons, hi]
  rfl

/-- A base key that only lines without an index have. -/
theorem runEdits_plain (h : ∀ e ∈ edits, e.index = none) (r : Option Replacement) :
    runEdits r edits = some ((edits.getLast?.map fun e => .value e.value).or r) := by
  induction edits generalizing r with
  | nil => rfl
  | cons e edits ih =>
    have hfirst : e.apply r = some (.value e.value) := by
      rw [Edit.apply, h e (by simp)]
    rw [runEdits, hfirst, Option.bind_some, ih fun e he => h e (by simp [he]), List.getLast?_cons]
    cases edits.getLast? <;> rfl

/-- Fixed items stay first, and the items after them are below the integers. -/
theorem runEdits_fixed {fixed : List Yaml} {r : Option Replacement}
    (h : ∀ e ∈ edits, ∃ i ≤ maxInt, e.index = some i)
    (hsize : fixed.length + items.length ≤ max fixed.length (maxInt + 1))
    (hrun : runEdits (some (.array fixed items)) edits = some r) :
    ∃ items', r = some (.array fixed items') ∧
      fixed.length + items'.length ≤ max fixed.length (maxInt + 1) := by
  induction edits generalizing items with
  | nil => exact ⟨items, (Option.some.inj hrun).symm, hsize⟩
  | cons e edits ih =>
    obtain ⟨i, hi, hindex⟩ := h e (by simp)
    rw [runEdits, Edit.apply, hindex] at hrun
    simp only [setIndexed] at hrun
    split_ifs at hrun with hlt
    · simp at hrun
    · refine ih (fun e he => h e (by simp [he])) ?_ hrun
      rw [length_setItem]
      omega

/-- An index that was no integer has its line taken for one without an index. What it puts at
the base key is not found below the base key. -/
theorem runEdits_overflow {v : Yaml} {k : Text} {r : Replacement} (hi : maxInt < i)
    (h : ∀ e ∈ edits, ∃ i ≤ maxInt, e.index = some i)
    (hrun : runEdits (some (.value v)) edits = some (some r)) :
    r.tree.get [.index i, .key (.str k)] ≠ some v := by
  intro hget
  cases edits with
  | nil =>
    obtain rfl : Replacement.value v = r := by simpa [runEdits] using hrun
    exact Nat.lt_irrefl _ (Tree.sizeOf_get_lt hget (by simp))
  | cons e edits =>
    obtain ⟨j, hj, hindex⟩ := h e (by simp)
    rw [runEdits, Edit.apply, hindex] at hrun
    simp only at hrun
    cases v with
    | leaf a => simp [setIndexed] at hrun
    | map entries => simp [setIndexed] at hrun
    | list fixed =>
      simp only [setIndexed] at hrun
      split_ifs at hrun with hlt
      · simp at hrun
      · rw [Option.bind_some] at hrun
        obtain ⟨items', hr, hsize⟩ := runEdits_fixed (fun e he => h e (by simp [he]))
          (by rw [length_setItem, List.length_nil]; omega) hrun
        cases hr
        rw [Replacement.tree, Tree.get_list_index, Option.bind_eq_some_iff] at hget
        obtain ⟨element, helement, hget⟩ := hget
        have hfixed : i < fixed.length := by
          have hlength := (List.getElem?_eq_some_iff.mp helement).1
          rw [List.length_append, List.length_map] at hlength
          omega
        rw [List.getElem?_append_left hfixed] at helement
        have hinner := Tree.sizeOf_get_lt hget (by simp)
        have houter := List.sizeOf_lt_of_mem (List.mem_of_getElem? helement)
        rw [Tree.list.sizeOf_spec] at hinner
        omega

end Items

/-! ## Documents -/

section Documents

variable {data : Entries} {path path' : List Text} {t : Yaml} {loc : Location}

/-- No list with items stands where the path runs. -/
def NoList (data : Entries) (path : List Text) : Prop :=
  ∀ q k r, path = q ++ k :: r → ∀ i, (Tree.map data).get (keys q ++ [.index i]) = none

theorem keys_append (path path' : List Text) : keys (path ++ path') = keys path ++ keys path' :=
  List.map_append

theorem map_str_map_key (path : List Text) : (path.map Scalar.str).map Step.key = keys path := by
  rw [List.map_map]
  rfl

theorem keys_prefix_iff : keys path <+: keys path' ↔ path <+: path' := by
  refine List.prefix_map_iff_of_injective fun k k' h => ?_
  exact Scalar.str.inj (Step.key.inj h)

/-- A location that parts from a path does so at one of its keys. -/
theorem exists_parting_keys (h : Apart (keys path) loc) : ∃ q k r s rest,
    path = q ++ k :: r ∧ s ≠ .key (.str k) ∧ loc = keys q ++ s :: rest := by
  obtain ⟨l, a, s, l', rest, hne, hpath, rfl⟩ := h.exists_parting
  obtain ⟨q, tail, rfl, rfl, htail⟩ := List.map_eq_append_iff.mp hpath
  obtain ⟨k, r, rfl, rfl, -⟩ := List.map_eq_cons_iff.mp htail
  exact ⟨q, k, r, s, rest, rfl, Ne.symm hne, rfl⟩

/-- What is apart from a path is apart from the lists it would run through. -/
theorem apart_index {q r : List Text} {k : Text} (i : Nat)
    (h : Apart (keys path) (keys (q ++ k :: r))) : Apart (keys path) (keys q ++ [.index i]) := by
  constructor
  · intro hp
    rcases List.prefix_concat_iff.mp hp with heq | hp
    · exact index_notMem_keys path i (heq ▸ by simp)
    · refine h.1 (hp.trans ?_)
      rw [keys_append]
      exact List.prefix_append _ _
  · intro hp
    exact index_notMem_keys path i (hp.subset (by simp))

theorem get_applyReplacement_append (data : Entries) (t : Yaml) (hne : path ≠ [])
    (loc : Location) :
    (Tree.map (applyReplacement data path t)).get (keys path ++ loc) = t.get loc := by
  rw [← map_str_map_key]
  exact Tree.get_put_append data t (by simpa using hne) loc

theorem get_applyReplacement_of_apart (hlist : NoList data path) (h : Apart (keys path) loc) :
    (Tree.map (applyReplacement data path t)).get loc = (Tree.map data).get loc := by
  obtain ⟨q, k, r, s, rest, rfl, hs, rfl⟩ := exists_parting_keys h
  rw [applyReplacement, List.map_append, List.map_cons]
  cases s with
  | key k' =>
    rw [← map_str_map_key]
    exact Tree.get_put_of_ne _ _ _ _ (fun he => hs (congrArg Step.key he)) _
  | index i =>
    have hnone := Tree.get_append_none (hlist q k r rfl i) rest
    rw [List.append_assoc, List.singleton_append] at hnone
    rw [hnone, ← map_str_map_key]
    exact Tree.get_put_of_index _ _ _ _ _ _ _

/-- Between paths of keys no list is in the way. -/
theorem get_applyReplacement_of_apart_keys (data : Entries) (t : Yaml)
    (h : Apart (keys path) (keys path')) (loc : Location) :
    (Tree.map (applyReplacement data path t)).get (keys path' ++ loc) =
      (Tree.map data).get (keys path' ++ loc) := by
  obtain ⟨q, k, r, s, rest, rfl, hs, hpath'⟩ := exists_parting_keys h
  obtain ⟨q', tail, rfl, hq', htail⟩ := List.map_eq_append_iff.mp hpath'
  obtain ⟨k', r', rfl, rfl, -⟩ := List.map_eq_cons_iff.mp htail
  have hne : Scalar.str k' ≠ .str k := fun he => hs (congrArg Step.key he)
  rw [keys_append, List.append_assoc, applyReplacement, List.map_append, List.map_cons,
    show keys q' = keys q from hq', ← map_str_map_key]
  exact Tree.get_put_of_ne _ _ _ _ hne _

variable {replacements : List (Text × Replacement)}

theorem noList_applyReplacement (h : Apart (keys path) (keys path')) (hlist : NoList data path)
    (hlist' : NoList data path') : NoList (applyReplacement data path t) path' := by
  rintro q k r rfl i
  rw [get_applyReplacement_of_apart hlist (apart_index i h)]
  exact hlist' q k r rfl i

/-- Apart from the paths, a document stays as it was. -/
theorem get_updateYaml_apart
    (hapart : replacements.Pairwise fun r r' =>
      Apart (keys (r.1.splitOn '.')) (keys (r'.1.splitOn '.')))
    (hlist : ∀ r ∈ replacements, NoList data (r.1.splitOn '.'))
    (h : ∀ r ∈ replacements, Apart (keys (r.1.splitOn '.')) loc) :
    (Tree.map (updateYaml data replacements)).get loc = (Tree.map data).get loc := by
  induction replacements generalizing data with
  | nil => rfl
  | cons r replacements ih =>
    obtain ⟨hr, hapart⟩ := List.pairwise_cons.mp hapart
    have hfirst := hlist r (by simp)
    have hrest : ∀ r' ∈ replacements,
        NoList (applyReplacement data (r.1.splitOn '.') r.2.tree) (r'.1.splitOn '.') := by
      intro r' hr'
      exact noList_applyReplacement (hr r' hr') hfirst (hlist r' (by simp [hr']))
    rw [updateYaml, List.foldl_cons, ← updateYaml,
      ih hapart hrest fun r' hr' => h r' (by simp [hr'])]
    exact get_applyReplacement_of_apart hfirst (h r (by simp))

theorem get_updateYaml_of_apart_keys
    (h : ∀ r ∈ replacements, Apart (keys (r.1.splitOn '.')) (keys path)) (loc : Location) :
    (Tree.map (updateYaml data replacements)).get (keys path ++ loc) =
      (Tree.map data).get (keys path ++ loc) := by
  induction replacements generalizing data with
  | nil => rfl
  | cons r replacements ih =>
    rw [updateYaml, List.foldl_cons, ← updateYaml, ih fun r' hr' => h r' (by simp [hr'])]
    exact get_applyReplacement_of_apart_keys _ _ (h r (by simp)) _

variable (data) in
/-- Each replacement is read back at its path. -/
theorem get_updateYaml_path
    (hapart : replacements.Pairwise fun r r' =>
      Apart (keys (r.1.splitOn '.')) (keys (r'.1.splitOn '.')))
    {r : Text × Replacement} (hr : r ∈ replacements) (loc : Location) :
    (Tree.map (updateYaml data replacements)).get (keys (r.1.splitOn '.') ++ loc) =
      r.2.tree.get loc := by
  obtain ⟨l, l', rfl⟩ := List.append_of_mem hr
  have hafter : ∀ r' ∈ l', Apart (keys (r'.1.splitOn '.')) (keys (r.1.splitOn '.')) := by
    intro r' hr'
    exact ((List.pairwise_cons.mp (List.pairwise_append.mp hapart).2.1).1 r' hr').symm
  rw [updateYaml, List.foldl_append, List.foldl_cons, ← updateYaml, ← updateYaml,
    get_updateYaml_of_apart_keys hafter]
  exact get_applyReplacement_append _ _ (List.splitOn_ne_nil _ _) _

end Documents

end Minikura.Patcher
