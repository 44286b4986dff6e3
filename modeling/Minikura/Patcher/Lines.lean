import Mathlib.Data.List.TakeWhile
import Minikura.Patcher.Config

/-!
# The lines of a patch

A line `path=value` or `path[index].key=value` addresses a location of the document, and the
parser finds in it what it says. An index beyond the integers is no index to the parser.

## Main definitions

* `Target`, `Patch` — where a line points, and with which value.

## Main results

* `parseLine_of_writes` — what is parsed of a line.
* `dotted_injective` — the text of a path determines it.
-/

namespace Minikura.Patcher

def IsKey (key : Text) : Prop := key ≠ [] ∧ '.' ∉ key ∧ '[' ∉ key

def IsPath (path : List Text) : Prop := path ≠ [] ∧ ∀ key ∈ path, IsKey key

instance (key : Text) : Decidable (IsKey key) :=
  inferInstanceAs (Decidable (key ≠ [] ∧ '.' ∉ key ∧ '[' ∉ key))

instance (path : List Text) : Decidable (IsPath path) :=
  inferInstanceAs (Decidable (path ≠ [] ∧ ∀ key ∈ path, IsKey key))

def dotted (path : List Text) : Text := ['.'].intercalate path

abbrev Location := List (Step Scalar)

def keys (path : List Text) : Location := path.map fun key => .key (.str key)

theorem keys_injective {path path' : List Text} (h : keys path = keys path') : path = path' :=
  List.map_injective_iff.mpr (fun _ _ h => Scalar.str.inj (Step.key.inj h)) h

theorem index_notMem_keys (path : List Text) (i : Nat) : Step.index i ∉ keys path := by
  simp [keys]

inductive Target where
  | plain (path : List Text)
  | indexed (path : List Text) (digits key : Text)
deriving Repr, DecidableEq

namespace Target

def path : Target → List Text
  | .plain path => path
  | .indexed path _ _ => path

def index : Target → Option Nat
  | .plain _ => none
  | .indexed _ digits _ => some (natValue digits)

def subKey : Target → Text
  | .plain _ => []
  | .indexed _ _ key => key

/-- The left side of a line. -/
def text : Target → Text
  | .plain path => dotted path
  | .indexed path digits key => dotted path ++ '[' :: (digits ++ ']' :: '.' :: key)

def location : Target → Location
  | .plain path => keys path
  | .indexed path digits key => keys path ++ [.index (natValue digits), .key (.str key)]

def WellFormed : Target → Prop
  | .plain path => IsPath path
  | .indexed path digits key =>
    IsPath path ∧ (digits ≠ [] ∧ ∀ c ∈ digits, isAsciiDigit c = true) ∧ IsKey key

instance (t : Target) : Decidable t.WellFormed :=
  match t with
  | .plain path => inferInstanceAs (Decidable (IsPath path))
  | .indexed path digits key =>
    -- named, for another instance of this type tries every character there is
    haveI := List.decidableBAll (fun c => isAsciiDigit c = true) digits
    inferInstanceAs (Decidable
      (IsPath path ∧ (digits ≠ [] ∧ ∀ c ∈ digits, isAsciiDigit c = true) ∧ IsKey key))

theorem location_of_none {t : Target} (h : t.index = none) : t.location = keys t.path := by
  cases t with
  | plain path => rfl
  | indexed path digits key => simp [index] at h

theorem location_of_some {t : Target} {i : Nat} (h : t.index = some i) :
    t.location = keys t.path ++ [.index i, .key (.str t.subKey)] := by
  cases t with
  | plain path => simp [index] at h
  | indexed path digits key =>
    cases h
    rfl

theorem eq_of_location {t t' : Target} (h : t.location = t'.location) :
    t.path = t'.path ∧ t.index = t'.index ∧ t.subKey = t'.subKey := by
  have hindex : ∀ {path path' : List Text} {i : Nat} {k : Text},
      keys path ≠ keys path' ++ [.index i, .key (.str k)] := by
    intro path path' i k h
    refine index_notMem_keys path i ?_
    rw [h]
    simp
  cases t with
  | plain path =>
    cases t' with
    | plain path' => exact ⟨keys_injective h, rfl, rfl⟩
    | indexed path' digits key => exact absurd h hindex
  | indexed path digits key =>
    cases t' with
    | plain path' => exact absurd h.symm hindex
    | indexed path' digits' key' =>
      obtain ⟨hpath, hrest⟩ := List.append_inj' h rfl
      simp only [List.cons.injEq, Step.index.injEq, Step.key.injEq, Scalar.str.injEq,
        and_true] at hrest
      exact ⟨keys_injective hpath, congrArg some hrest.1, hrest.2⟩

theorem keys_path_prefix (t : Target) : keys t.path <+: t.location := by
  cases t with
  | plain path => exact List.prefix_rfl
  | indexed path digits key => exact List.prefix_append _ _

theorem WellFormed.isPath {t : Target} (h : t.WellFormed) : IsPath t.path := by
  cases t with
  | plain path => exact h
  | indexed path digits key => exact h.1

end Target

structure Patch where
  target : Target
  value : Text
deriving Repr, DecidableEq

/-- The line has the form of the target and the value, up to blanks around them. -/
def Patch.Writes (p : Patch) (line : Text) : Prop :=
  p.target.WellFormed ∧ ∃ left right, line = left ++ '=' :: right ∧ '=' ∉ left ∧
    trim left = p.target.text ∧ trim right = p.value

theorem wellFormed_of_writes {patches : List Patch} {lines : List Text}
    (h : List.Forall₂ Patch.Writes patches lines) : ∀ p ∈ patches, p.target.WellFormed := by
  induction h with
  | nil => simp
  | cons hline h ih => exact List.forall_mem_cons.mpr ⟨hline.1, ih⟩

/-- The edit of a line, for a parsed value. -/
def Patch.edit (p : Patch) (value : Yaml) : Edit :=
  ⟨dotted p.target.path, p.target.index.filter (· ≤ maxInt), p.target.subKey, value⟩

section Split

variable {α : Type} [DecidableEq α] {l : List α} {c : α} (r : List α)

theorem takeWhile_ne_self (h : c ∉ l) : l.takeWhile (· ≠ c) = l :=
  List.takeWhile_eq_self_iff.mpr fun x hx => by
    have hne : x ≠ c := fun he => h (he ▸ hx)
    simpa using hne

theorem dropWhile_ne_self (h : c ∉ l) : l.dropWhile (· ≠ c) = [] :=
  List.dropWhile_eq_nil_iff.mpr fun x hx => by
    have hne : x ≠ c := fun he => h (he ▸ hx)
    simpa using hne

/-- The first `c` is found where it stands. -/
theorem takeWhile_ne_append (h : c ∉ l) : (l ++ c :: r).takeWhile (· ≠ c) = l := by
  rw [List.takeWhile_append, takeWhile_ne_self h]
  simp

theorem dropWhile_ne_append (h : c ∉ l) : (l ++ c :: r).dropWhile (· ≠ c) = c :: r := by
  rw [List.dropWhile_append, dropWhile_ne_self h]
  simp

end Split

section Parsing

variable {path : List Text} {digits key : Text}

theorem splitOn_dotted (h : IsPath path) : (dotted path).splitOn '.' = path :=
  List.splitOn_intercalate '.' (fun key hkey => (h.2 key hkey).2.1) h.1

theorem dotted_injective {path' : List Text} (h : IsPath path) (h' : IsPath path')
    (heq : dotted path = dotted path') : path = path' := by
  rw [← splitOn_dotted h, heq, splitOn_dotted h']

theorem mem_intercalate_of_ne {sep : Char} {parts : List Text} {c : Char}
    (h : c ∈ [sep].intercalate parts) (hne : c ≠ sep) : ∃ part ∈ parts, c ∈ part := by
  induction parts with
  | nil => simp at h
  | cons part parts ih =>
    by_cases hparts : parts = []
    · subst hparts
      exact ⟨part, by simp, by simpa using h⟩
    · rw [List.intercalate_cons_of_ne_nil hparts, List.mem_append, List.mem_append] at h
      rcases h with (h | h) | h
      · exact ⟨part, by simp, h⟩
      · exact absurd (List.mem_singleton.mp h) hne
      · obtain ⟨part', hpart', hc⟩ := ih h
        exact ⟨part', by simp [hpart'], hc⟩

theorem notMem_dotted (h : IsPath path) : '[' ∉ dotted path := by
  intro hmem
  obtain ⟨part, hpart, hc⟩ := mem_intercalate_of_ne hmem (by decide)
  exact (h.2 part hpart).2.2 hc

theorem dotted_ne_nil (h : IsPath path) : dotted path ≠ [] := by
  intro hnil
  have hsplit := splitOn_dotted h
  rw [hnil, List.splitOn_nil] at hsplit
  exact (h.2 [] (hsplit ▸ List.mem_singleton_self _)).1 rfl

theorem digitOf_isSome {c : Char} (h : isAsciiDigit c = true) : (digitOf c).isSome := by
  have hrange : 0x30 ≤ c.toNat ∧ c.toNat ≤ 0x39 := by
    simp only [isAsciiDigit, Bool.and_eq_true, decide_eq_true_eq, Char.le_def,
      UInt32.le_iff_toNat_le] at h
    exact h
  rw [digitOf, digitZeros, List.find?_cons_of_pos]
  · rfl
  · simpa using hrange

theorem toIntOrNull_digits (hne : digits ≠ []) (h : ∀ c ∈ digits, isAsciiDigit c = true) :
    toIntOrNull digits =
      if natValue digits ≤ maxInt then some (natValue digits : Int) else none := by
  have hall : digits.all (fun c => (digitOf c).isSome) = true :=
    List.all_eq_true.mpr fun c hc => digitOf_isSome (h c hc)
  cases digits with
  | nil => exact absurd rfl hne
  | cons c digits =>
    have hminus : c ≠ '-' := by
      rintro rfl
      exact absurd (h '-' (by simp)) (by decide)
    have hplus : c ≠ '+' := by
      rintro rfl
      exact absurd (h '+' (by simp)) (by decide)
    have hsigned : signed (c :: digits) = (false, c :: digits) := by
      unfold signed
      split <;> simp_all
    simp only [toIntOrNull, hsigned, hall, List.isEmpty_cons, Bool.not_true, Bool.or_false,
      Bool.false_eq_true, if_false]

theorem parseKeyWithIndex_plain (h : IsPath path) :
    parseKeyWithIndex (dotted path) = (dotted path, none, []) := by
  have hnot := notMem_dotted h
  have hmatch : matchKey (dotted path) = some (dotted path, [], []) := by
    rw [matchKey, takeWhile_ne_self hnot, dropWhile_ne_self hnot, if_neg (dotted_ne_nil h)]
  rw [parseKeyWithIndex, hmatch]
  rfl

theorem parseKeyWithIndex_indexed (h : IsPath path) (hne : digits ≠ [])
    (hdigits : ∀ c ∈ digits, isAsciiDigit c = true) (hkey : IsKey key) :
    parseKeyWithIndex (dotted path ++ '[' :: (digits ++ ']' :: '.' :: key)) =
      (dotted path, (some (natValue digits)).filter (· ≤ maxInt), key) := by
  obtain ⟨d, digits, rfl⟩ := List.exists_cons_of_ne_nil hne
  have hstop : isAsciiDigit ']' = false := by decide
  have htake : (d :: digits ++ ']' :: '.' :: key).takeWhile isAsciiDigit = d :: digits := by
    rw [List.takeWhile_append_of_pos hdigits, List.takeWhile_cons, hstop]
    simp
  have hdrop : (d :: digits ++ ']' :: '.' :: key).dropWhile isAsciiDigit =
      ']' :: '.' :: key := by
    rw [List.dropWhile_append_of_pos hdigits, List.dropWhile_cons, hstop]
    simp
  have hsub : '.' :: key = [] ∨
      (('.' :: key).head? = some '.' ∧ 2 ≤ ('.' :: key).length ∧ '[' ∉ '.' :: key) := by
    refine .inr ⟨rfl, ?_, by simpa using hkey.2.2⟩
    have := List.length_pos_iff.mpr hkey.1
    rw [List.length_cons]
    omega
  have hmatch : matchKey (dotted path ++ '[' :: (d :: digits ++ ']' :: '.' :: key)) =
      some (dotted path, d :: digits, '.' :: key) := by
    rw [matchKey, takeWhile_ne_append _ (notMem_dotted h), dropWhile_ne_append _ (notMem_dotted h),
      if_neg (dotted_ne_nil h)]
    simp only [htake, hdrop, if_pos hsub]
  obtain ⟨k, ks, rfl⟩ := List.exists_cons_of_ne_nil hkey.1
  have hdot : k ≠ '.' := fun he => hkey.2.1 (he ▸ List.mem_cons_self)
  simp only [parseKeyWithIndex, hmatch, toIntOrNull_digits hne hdigits]
  by_cases hle : natValue (d :: digits) ≤ maxInt <;> simp [hle, hdot, Option.filter]

end Parsing

/-- The parser finds in a line what it says. -/
theorem parseLine_of_writes {p : Patch} {line : Text} (h : p.Writes line) :
    parseLine line = (parseValue p.value).map fun value => some (p.edit value) := by
  obtain ⟨hform, left, right, rfl, hleft, htext, hvalue⟩ := h
  have hkey : parseKeyWithIndex p.target.text =
      (dotted p.target.path, p.target.index.filter (· ≤ maxInt), p.target.subKey) := by
    cases htarget : p.target with
    | plain path =>
      rw [htarget] at hform
      exact parseKeyWithIndex_plain hform
    | indexed path digits key =>
      rw [htarget] at hform
      exact parseKeyWithIndex_indexed hform.1 hform.2.1.1 hform.2.1.2 hform.2.2
  rw [parseLine, if_neg (by simp), takeWhile_ne_append _ hleft, dropWhile_ne_append _ hleft,
    htext]
  simp only [hkey, List.drop_one, List.tail_cons, hvalue]
  rfl

end Minikura.Patcher
