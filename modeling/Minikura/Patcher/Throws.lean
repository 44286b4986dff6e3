import Minikura.Patcher.Replacements

/-!
# What throws

Splitting a variable and parsing a key always succeed. `parseValue` throws for a lone
quotation mark, also as the value of an array's item, and the building of the replacements
where an index follows a value that is no list, or points at an item of an array value.

## Main definitions

* `LoneQuote`, `Clash` — the values and the edits that throw.

## Main results

* `parseValue_eq_none_iff`, `gather_eq_none_iff` — nothing else does.
-/

namespace Minikura.Patcher

theorem mapM_eq_none_iff {α β : Type} {f : α → Option β} {l : List α} :
    l.mapM f = none ↔ ∃ a ∈ l, f a = none := by
  induction l with
  | nil => simp
  | cons a l ih =>
    rw [List.mapM_cons]
    cases h : f a with
    | none => simp [h]
    | some b =>
      cases hrest : l.mapM f with
      | none =>
        obtain ⟨c, hc, hnone⟩ := ih.mp hrest
        simp only [Option.bind_eq_bind, Option.bind_some, Option.bind_none, true_iff]
        exact ⟨c, List.mem_cons_of_mem a hc, hnone⟩
      | some bs =>
        have hsome : ¬∃ c ∈ l, f c = none := fun hc => by simp [ih.mpr hc] at hrest
        simpa [h] using hsome

/-! ## Values -/

/-- A quotation mark, or an array with an item that has such a value. -/
inductive LoneQuote : Text → Prop where
  | double : LoneQuote ['\x22']
  | single : LoneQuote ['\x27']
  | item {t item : Text} (harray : enclosed '[' ']' t)
    (hitem : item ∈ (trim (inner t)).splitOn ',')
    (hvalue : LoneQuote (trim (itemKeyValue item).2)) : LoneQuote t

section Values

variable {t : Text}

theorem head?_of_enclosed {c d : Char} (h : enclosed c d t) : t.head? = some c := by
  simp only [enclosed, Bool.and_eq_true, beq_iff_eq] at h
  exact h.1

/-- What starts with a bracket is no word, no quoted text and no number. -/
theorem parseValue_array (h : enclosed '[' ']' t) : parseValue t = none ↔
    ∃ item ∈ (trim (inner t)).splitOn ',', parseValue (trim (itemKeyValue item).2) = none := by
  have hhead := head?_of_enclosed h
  obtain ⟨cs, rfl⟩ := List.head?_eq_some_iff.mp hhead
  have hlower : (if '[' = 'ſ' then 's' else '['.toLower) = '[' := by decide
  have hword : ∀ (c : Char) (word : Text), c ≠ '[' →
      equalsIgnoreCase ('[' :: cs) (c :: word) = false := by
    intro c word hne
    simp only [equalsIgnoreCase, List.map_cons, hlower, decide_eq_false_iff_not, List.cons.injEq]
    exact fun heq => hne heq.1.symm
  have hnumber : toIntOrNull ('[' :: cs) = none := by
    have hdigit : (digitOf '[').isSome = false := by decide
    have hsigned : signed ('[' :: cs) = (false, '[' :: cs) := rfl
    simp [toIntOrNull, hsigned, hdigit]
  have htrue : equalsIgnoreCase ('[' :: cs) "true".toList = false := hword _ _ (by decide)
  have hfalse : equalsIgnoreCase ('[' :: cs) "false".toList = false := hword _ _ (by decide)
  rw [parseValue, htrue, hfalse, if_neg (by simp), if_neg (by simp),
    if_neg (by simp [enclosed]), if_neg (by simp [enclosed]), hnumber]
  simp only [dif_pos h, Option.bind_eq_bind]
  rw [Option.bind_eq_none_iff]
  simp only [reduceCtorEq, imp_false]
  rw [← Option.eq_none_iff_forall_ne_some, mapM_eq_none_iff]
  simp

theorem parseValue_of_loneQuote (h : LoneQuote t) : parseValue t = none := by
  induction h with
  | double => rw [parseValue]; rfl
  | single => rw [parseValue]; rfl
  | item harray hitem _ ih => exact (parseValue_array harray).mpr ⟨_, hitem, ih⟩

theorem eq_singleton_of_length {c d : Char} (h : enclosed c d t) (hlength : t.length < 2) :
    t = [c] := by
  obtain ⟨cs, rfl⟩ := List.head?_eq_some_iff.mp (head?_of_enclosed h)
  have hnil : cs.length = 0 := by
    rw [List.length_cons] at hlength
    omega
  rw [List.length_eq_zero_iff.mp hnil]

/-- A value throws if and only if it is a lone quotation mark or has one. -/
theorem parseValue_eq_none_iff : parseValue t = none ↔ LoneQuote t := by
  refine ⟨fun h => ?_, parseValue_of_loneQuote⟩
  induction hn : t.length using Nat.strong_induction_on generalizing t with
  | _ n ih =>
    subst hn
    by_cases harray : enclosed '[' ']' t
    · obtain ⟨item, hitem, hvalue⟩ := (parseValue_array harray).mp h
      refine .item harray hitem (ih _ ?_ hvalue rfl)
      have hne : t ≠ [] := fun hnil => by simp [hnil, enclosed] at harray
      have hinner := length_inner_lt hne
      have hitems := length_trim_le (inner t)
      have hlength := length_le_of_mem_splitOn hitem
      have hpart : (itemKeyValue item).2.length ≤ item.length := length_getD_splitOn_le _ _ _
      have htrim := length_trim_le (itemKeyValue item).2
      omega
    · rw [parseValue] at h
      split_ifs at h with htrue hfalse hdouble hsingle
      · rw [unquote] at h
        split_ifs at h with hlength
        rw [eq_singleton_of_length hdouble hlength]
        exact .double
      · rw [unquote] at h
        split_ifs at h with hlength
        rw [eq_singleton_of_length hsingle hlength]
        exact .single
      · split at h
        · cases h
        · cases h

end Values

/-! ## Replacements -/

/-- An edit with an index after the value of an edit without one: the value is no list, or the
index is that of one of its items. -/
def Clash (p e : Edit) : Prop :=
  p.index = none ∧ ∃ i, e.index = some i ∧ ∀ fixed, p.value = .list fixed → i < fixed.length

section Replacements

variable {edits : List Edit} {e p : Edit}

/-- Some edits of one base key clash, with no other value for the base key between them. -/
def Clashing (edits : List Edit) : Prop :=
  ∃ base pre p mid e post, edits.filter (·.baseKey = base) = pre ++ p :: (mid ++ e :: post) ∧
    (∀ q ∈ mid, q.index.isSome) ∧ Clash p e

/-- The replacement for a base key does not take the edit. -/
def Rejects (r : Option Replacement) (e : Edit) : Prop :=
  ∃ i, e.index = some i ∧
    match r with
    | none => False
    | some (.array fixed _) => i < fixed.length
    | some (.value t) => ∀ fixed, t = .list fixed → i < fixed.length

theorem apply_eq_none_iff (r : Option Replacement) : e.apply r = none ↔ Rejects r e := by
  unfold Edit.apply Rejects
  cases e.index with
  | none => simp
  | some i =>
    rcases r with _ | t | ⟨fixed, items⟩
    · simp [setIndexed]
    · cases t <;> simp [setIndexed]
    · simp [setIndexed]

/-- An edit with an index changes nothing of what is taken after it. -/
theorem rejects_of_apply {r : Option Replacement} {r' : Replacement} (hindex : p.index.isSome)
    (h : p.apply r = some r') : Rejects (some r') e ↔ Rejects r e := by
  obtain ⟨i, hi⟩ := Option.isSome_iff_exists.mp hindex
  rw [Edit.apply, hi] at h
  unfold Rejects
  rcases r with _ | t | ⟨fixed, items⟩
  · obtain rfl := Option.some.inj h
    simp
  · cases t with
    | leaf a => cases h
    | map entries => cases h
    | list fixed =>
      simp only [setIndexed] at h
      split_ifs at h
      obtain rfl := Option.some.inj h
      simp
  · simp only [setIndexed] at h
    split_ifs at h
    obtain rfl := Option.some.inj h
    rfl

/-- An edit in `P` comes after edits with an index only. -/
def Follows (P : Edit → Prop) (edits : List Edit) : Prop :=
  ∃ mid e post, edits = mid ++ e :: post ∧ (∀ q ∈ mid, q.index.isSome) ∧ P e

theorem follows_cons_iff {P : Edit → Prop} {first : Edit} :
    Follows P (first :: edits) ↔ P first ∨ first.index.isSome ∧ Follows P edits := by
  constructor
  · rintro ⟨mid, e, post, heq, hmid, he⟩
    rcases List.cons_eq_append_iff.mp heq with ⟨rfl, hfirst⟩ | ⟨mid', rfl, rfl⟩
    · obtain ⟨rfl, rfl⟩ := List.cons.inj hfirst
      exact .inl he
    · obtain ⟨hindex, hmid'⟩ := List.forall_mem_cons.mp hmid
      exact .inr ⟨hindex, mid', e, post, rfl, hmid', he⟩
  · rintro (hfirst | ⟨hindex, mid, e, post, rfl, hmid, he⟩)
    · exact ⟨[], first, edits, rfl, by simp, hfirst⟩
    · exact ⟨first :: mid, e, post, rfl, List.forall_mem_cons.mpr ⟨hindex, hmid⟩, he⟩

/-- Two edits clash, with edits with an index between them. -/
def Collides (edits : List Edit) : Prop :=
  ∃ pre p rest, edits = pre ++ p :: rest ∧ Follows (Clash p) rest

theorem collides_cons_iff {first : Edit} :
    Collides (first :: edits) ↔ Follows (Clash first) edits ∨ Collides edits := by
  constructor
  · rintro ⟨pre, p, rest, heq, hfollows⟩
    rcases List.cons_eq_append_iff.mp heq with ⟨rfl, hfirst⟩ | ⟨pre', rfl, rfl⟩
    · obtain ⟨rfl, rfl⟩ := List.cons.inj hfirst
      exact .inl hfollows
    · exact .inr ⟨pre', p, rest, rfl, hfollows⟩
  · rintro (hfollows | ⟨pre, p, rest, rfl, hfollows⟩)
    · exact ⟨[], first, edits, rfl, hfollows⟩
    · exact ⟨first :: pre, p, rest, rfl, hfollows⟩

theorem runEdits_eq_none_iff (r : Option Replacement) :
    runEdits r edits = none ↔ Follows (Rejects r) edits ∨ Collides edits := by
  induction edits generalizing r with
  | nil => simp [runEdits, Follows, Collides]
  | cons first edits ih =>
    rw [runEdits, follows_cons_iff, collides_cons_iff]
    cases happly : first.apply r with
    | none => exact iff_of_true rfl (.inl (.inl ((apply_eq_none_iff r).mp happly)))
    | some r' =>
      have hnot : ¬Rejects r first := fun h => by
        rw [(apply_eq_none_iff r).mpr h] at happly
        cases happly
      rw [Option.bind_some, ih (some r')]
      cases hindex : first.index with
      | some i =>
        -- the edit adds to the items: what was rejected before is rejected now
        have hsome : first.index.isSome := by rw [hindex]; rfl
        have hsame : Rejects (some r') = Rejects r :=
          funext fun e => propext (rejects_of_apply hsome happly)
        have hclash : ¬Follows (Clash first) edits := by
          rintro ⟨_, _, _, _, _, hnone, -⟩
          cases hindex.symm.trans hnone
        simp [hsame, hnot, hclash]
      | none =>
        -- the edit puts a value there, and only this is looked at from now on
        have hvalue : r' = .value first.value := by
          rw [Edit.apply, hindex] at happly
          exact (Option.some.inj happly).symm
        have hclash : Rejects (some r') = Clash first :=
          funext fun e => propext (by simp [hvalue, Rejects, Clash, hindex])
        simp [hclash, hnot]

/-- The building of the replacements throws if and only if edits clash. -/
theorem gather_eq_none_iff : gather [] edits = none ↔ Clashing edits := by
  have hrejects : ∀ e, ¬Rejects none e := by
    rintro e ⟨i, -, hfalse⟩
    exact hfalse
  have hbase : ∀ base, runEdits none (edits.filter (·.baseKey = base)) = none ↔
      ∃ pre p mid e post, edits.filter (·.baseKey = base) = pre ++ p :: (mid ++ e :: post) ∧
        (∀ q ∈ mid, q.index.isSome) ∧ Clash p e := by
    intro base
    have hfollows : ∀ edits, ¬Follows (Rejects none) edits := by
      rintro edits ⟨_, e, _, _, _, he⟩
      exact hrejects e he
    rw [runEdits_eq_none_iff, or_iff_right (hfollows _)]
    constructor
    · rintro ⟨pre, p, _, heq, mid, e, post, rfl, hmid, hclash⟩
      exact ⟨pre, p, mid, e, post, heq, hmid, hclash⟩
    · rintro ⟨pre, p, mid, e, post, heq, hmid, hclash⟩
      exact ⟨pre, p, _, heq, mid, e, post, rfl, hmid, hclash⟩
  rw [Clashing]
  simp only [← hbase]
  constructor
  · intro h
    by_contra hno
    obtain ⟨replacements, hgather⟩ := @exists_gather [] edits fun base =>
      Option.ne_none_iff_exists'.mp fun hnone => hno ⟨base, hnone⟩
    cases h.symm.trans hgather
  · rintro ⟨base, hnone⟩
    cases hgather : gather [] edits with
    | none => rfl
    | some replacements => cases hnone.symm.trans (gather_lookup hgather base)

end Replacements

end Minikura.Patcher
