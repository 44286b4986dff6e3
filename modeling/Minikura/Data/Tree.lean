import Mathlib.Data.List.Basic
import Minikura.Data.OrderedMap

/-!
# Trees of mappings and lists

The documents of configuration languages: mappings with keys, lists, and leaves. A location
is a path of keys and indices. `put` writes a value below a path of keys and makes mappings
on its way; what it does is said location by location.

## Main results

* `get_put_append` — at and below its path, a document holds the value put there.
* `get_put_of_ne`, `get_put_of_index` — where a location parts from the path.
* `sizeOf_get_lt` — nothing is found below itself.
-/

namespace Minikura

inductive Tree (κ α : Type) where
  | leaf (a : α)
  | list (items : List (Tree κ α))
  | map (entries : List (κ × Tree κ α))

inductive Step (κ : Type) where
  | key (k : κ)
  | index (i : Nat)
deriving Repr, DecidableEq

/-- Two locations of which neither is at, below or above the other. -/
def Apart {σ : Type} (l l' : List σ) : Prop := ¬ l <+: l' ∧ ¬ l' <+: l

theorem Apart.symm {σ : Type} {l l' : List σ} (h : Apart l l') : Apart l' l := ⟨h.2, h.1⟩

theorem Apart.mono {σ : Type} {l l' m m' : List σ} (h : Apart l m) (hl : l <+: l')
    (hm : m <+: m') : Apart l' m' := by
  have htotal : ∀ {a b c : List σ}, a <+: c → b <+: c → a <+: b ∨ b <+: a :=
    List.prefix_or_prefix_of_prefix
  constructor
  · intro hp
    rcases htotal (hl.trans hp) hm with hlm | hml
    · exact h.1 hlm
    · exact h.2 hml
  · intro hp
    rcases htotal hl (hm.trans hp) with hlm | hml
    · exact h.1 hlm
    · exact h.2 hml

/-- Where they part. -/
theorem Apart.exists_parting {σ : Type} {l l' : List σ} (h : Apart l l') :
    ∃ q a b r r', a ≠ b ∧ l = q ++ a :: r ∧ l' = q ++ b :: r' := by
  induction l generalizing l' with
  | nil => exact absurd List.nil_prefix h.1
  | cons a l ih =>
    cases l' with
    | nil => exact absurd List.nil_prefix h.2
    | cons b l' =>
      by_cases hab : a = b
      · subst hab
        have hrest : Apart l l' :=
          ⟨fun hp => h.1 (List.cons_prefix_cons.mpr ⟨rfl, hp⟩),
            fun hp => h.2 (List.cons_prefix_cons.mpr ⟨rfl, hp⟩)⟩
        obtain ⟨q, x, y, r, r', hxy, rfl, rfl⟩ := ih hrest
        exact ⟨a :: q, x, y, r, r', hxy, rfl, rfl⟩
      · exact ⟨[], a, b, l, l', hab, rfl, rfl⟩

namespace Tree

variable {κ α : Type} [DecidableEq κ]

def get : Tree κ α → List (Step κ) → Option (Tree κ α)
  | t, [] => some t
  | .map entries, .key k :: loc => (entries.lookup k).bind (get · loc)
  | .list items, .index i :: loc => items[i]?.bind (get · loc)
  | _, _ :: _ => none

@[simp] theorem get_nil (t : Tree κ α) : t.get [] = some t := by cases t <;> rfl

@[simp] theorem get_map_key (entries : List (κ × Tree κ α)) (k : κ) (loc : List (Step κ)) :
    (Tree.map entries).get (.key k :: loc) = (entries.lookup k).bind (·.get loc) := rfl

@[simp] theorem get_list_index (items : List (Tree κ α)) (i : Nat) (loc : List (Step κ)) :
    (Tree.list items : Tree κ α).get (.index i :: loc) = items[i]?.bind (·.get loc) := rfl

@[simp] theorem get_map_index (entries : List (κ × Tree κ α)) (i : Nat) (loc : List (Step κ)) :
    (Tree.map entries).get (.index i :: loc) = none := rfl

@[simp] theorem get_list_key (items : List (Tree κ α)) (k : κ) (loc : List (Step κ)) :
    (Tree.list items : Tree κ α).get (.key k :: loc) = none := rfl

@[simp] theorem get_leaf_cons (a : α) (s : Step κ) (loc : List (Step κ)) :
    (Tree.leaf a : Tree κ α).get (s :: loc) = none := by cases s <;> rfl

theorem get_append (t : Tree κ α) (l l' : List (Step κ)) :
    t.get (l ++ l') = (t.get l).bind (·.get l') := by
  induction l generalizing t with
  | nil => simp
  | cons s l ih =>
    rw [List.cons_append]
    cases t with
    | leaf a => simp
    | list items =>
      cases s with
      | key k => simp
      | index i => cases h : items[i]? <;> simp [h, ih]
    | map entries =>
      cases s with
      | key k => cases h : entries.lookup k <;> simp [h, ih]
      | index i => simp

/-- What is there at a location decides what is there below it. -/
theorem get_append_congr {t t' : Tree κ α} {l : List (Step κ)} (h : t.get l = t'.get l)
    (l' : List (Step κ)) : t.get (l ++ l') = t'.get (l ++ l') := by
  rw [get_append, get_append, h]

theorem get_append_none {t : Tree κ α} {l : List (Step κ)} (h : t.get l = none)
    (l' : List (Step κ)) : t.get (l ++ l') = none := by
  rw [get_append, h]
  rfl

/-- A key below a location needs a mapping there, an index a list. -/
theorem exists_map_of_get {t u : Tree κ α} {l l' : List (Step κ)} {k : κ}
    (h : t.get (l ++ .key k :: l') = some u) : ∃ entries, t.get l = some (.map entries) := by
  rw [get_append] at h
  cases ht : t.get l with
  | none => simp [ht] at h
  | some v => cases v <;> simp_all

theorem exists_list_of_get {t u : Tree κ α} {l l' : List (Step κ)} {i : Nat}
    (h : t.get (l ++ .index i :: l') = some u) : ∃ items, t.get l = some (.list items) := by
  rw [get_append] at h
  cases ht : t.get l with
  | none => simp [ht] at h
  | some v => cases v <;> simp_all

/-- No location has both keys and elements below it. -/
theorem not_get_key_of_get_index {t u v : Tree κ α} {l r r' : List (Step κ)} {i : Nat} {k : κ}
    (hu : t.get (l ++ .index i :: r) = some u) (hv : t.get (l ++ .key k :: r') = some v) :
    False := by
  obtain ⟨items, hitems⟩ := exists_list_of_get hu
  obtain ⟨entries, hentries⟩ := exists_map_of_get hv
  rw [hitems] at hentries
  simp at hentries

/-- Nothing is found below itself. -/
theorem sizeOf_get_lt [SizeOf κ] [SizeOf α] {t u : Tree κ α} {loc : List (Step κ)}
    (h : t.get loc = some u) (hne : loc ≠ []) : sizeOf u < sizeOf t := by
  induction loc generalizing t with
  | nil => exact absurd rfl hne
  | cons s loc ih =>
    have hle : ∀ {v : Tree κ α}, v.get loc = some u → sizeOf u ≤ sizeOf v := by
      intro v hv
      by_cases hloc : loc = []
      · subst hloc
        rw [get_nil] at hv
        exact Nat.le_of_eq (congrArg sizeOf (Option.some.inj hv).symm)
      · exact Nat.le_of_lt (ih hv hloc)
    cases t with
    | leaf a => simp at h
    | list items =>
      cases s with
      | key k => simp at h
      | index i =>
        rw [get_list_index, Option.bind_eq_some_iff] at h
        obtain ⟨v, hv, hu⟩ := h
        have hmem : v ∈ items := List.mem_of_getElem? hv
        have hlt := List.sizeOf_lt_of_mem hmem
        have := hle hu
        simp only [Tree.list.sizeOf_spec]
        omega
    | map entries =>
      cases s with
      | index i => simp at h
      | key k =>
        rw [get_map_key, Option.bind_eq_some_iff] at h
        obtain ⟨v, hv, hu⟩ := h
        have hmem : (k, v) ∈ entries := by
          obtain ⟨l₁, l₂, rfl, -⟩ := List.lookup_eq_some_iff.mp hv
          simp
        have hlt := List.sizeOf_lt_of_mem hmem
        have := hle hu
        simp only [Tree.map.sizeOf_spec, Prod.mk.sizeOf_spec] at hlt ⊢
        omega

/-! ## Writing below a path of keys -/

/-- The entries of a mapping, of which anything else has none. -/
def entries : Option (Tree κ α) → List (κ × Tree κ α)
  | some (.map es) => es
  | _ => []

/-- Write a value below a path of keys; what is no mapping gives way to one. -/
def put (data : List (κ × Tree κ α)) : List κ → Tree κ α → List (κ × Tree κ α)
  | [], _ => data
  | [k], value => setEntry data k value
  | k :: keys, value => setEntry data k (.map (put (entries (data.lookup k)) keys value))

theorem get_setEntry (data : List (κ × Tree κ α)) (k k' : κ) (value : Tree κ α)
    (loc : List (Step κ)) : (Tree.map (setEntry data k value)).get (.key k' :: loc) =
      if k' = k then value.get loc else (Tree.map data).get (.key k' :: loc) := by
  rw [get_map_key, lookup_setEntry]
  split_ifs <;> rfl

theorem get_map_entries (data : List (κ × Tree κ α)) (k k' : κ) (loc : List (Step κ)) :
    (Tree.map (entries (data.lookup k))).get (.key k' :: loc) =
      (Tree.map data).get (.key k :: .key k' :: loc) := by
  rw [get_map_key data]
  cases data.lookup k with
  | none => rfl
  | some t => cases t <;> rfl

theorem put_cons (data : List (κ × Tree κ α)) (k : κ) {keys : List κ} (value : Tree κ α)
    (hne : keys ≠ []) : put data (k :: keys) value =
      setEntry data k (.map (put (entries (data.lookup k)) keys value)) := by
  cases keys with
  | nil => exact absurd rfl hne
  | cons k' keys => rfl

/-- At and below its path stands the value. -/
theorem get_put_append (data : List (κ × Tree κ α)) {keys : List κ} (value : Tree κ α)
    (hne : keys ≠ []) (loc : List (Step κ)) :
    (Tree.map (put data keys value)).get (keys.map .key ++ loc) = value.get loc := by
  induction keys generalizing data with
  | nil => exact absurd rfl hne
  | cons k keys ih =>
    cases keys with
    | nil => simp [put]
    | cons k' keys =>
      rw [List.map_cons, List.cons_append, put, get_setEntry, if_pos rfl]
      · exact ih _ (by simp)
      · simp

/-- A location that parts from the path at a key has what it had. -/
theorem get_put_of_ne (data : List (κ × Tree κ α)) (q : List κ) {k k' : κ} (keys : List κ)
    (value : Tree κ α) (hne : k' ≠ k) (loc : List (Step κ)) :
    (Tree.map (put data (q ++ k :: keys) value)).get (q.map .key ++ .key k' :: loc) =
      (Tree.map data).get (q.map .key ++ .key k' :: loc) := by
  induction q generalizing data with
  | nil => cases keys <;> simp [put, hne]
  | cons p q ih =>
    have hstart : ∃ j rest, q.map Step.key ++ .key k' :: loc = .key j :: rest := by
      cases q with
      | nil => exact ⟨k', loc, rfl⟩
      | cons j q => exact ⟨j, _, rfl⟩
    have hbelow := ih (entries (data.lookup p))
    obtain ⟨j, rest, hrest⟩ := hstart
    rw [List.cons_append, put_cons _ _ _ (by simp), List.map_cons, List.cons_append, get_setEntry,
      if_pos rfl, hbelow, hrest, get_map_entries]

/-- A location that parts from the path at an index has nothing any more. -/
theorem get_put_of_index (data : List (κ × Tree κ α)) (q : List κ) (k : κ) (keys : List κ)
    (value : Tree κ α) (i : Nat) (loc : List (Step κ)) :
    (Tree.map (put data (q ++ k :: keys) value)).get (q.map .key ++ .index i :: loc) = none := by
  induction q generalizing data with
  | nil => cases keys <;> simp [put]
  | cons p q ih =>
    rw [List.cons_append, put_cons _ _ _ (by simp), List.map_cons, List.cons_append, get_setEntry,
      if_pos rfl, ih]

end Tree

end Minikura
