import Mathlib.Data.List.TakeWhile
import Minikura.Data.Json
import Minikura.Data.OrderedMap

/-!
# JSON texts

`JSON.stringify` and `JSON.parse` for the values of `Json`. Of numbers there are the integers,
written in decimal; a text with a fraction or an exponent is not read here, and neither is the
escape of a surrogate, for which there is no character.

## Main definitions

* `Json.write` — `JSON.stringify(value)`.
* `Json.parse` — `JSON.parse(text)`.

## Main result

* `Json.parse_write` — what is written is read back.
-/

namespace Minikura.Json

/-! ## Writing -/

def hexDigits : List Char := "0123456789abcdef".toList

def hexDigit (n : ℕ) : Char := hexDigits.getD n '0'

/-- The character of an escape with one letter. -/
def shortEscapes : List (Char × Char) := [
  ('\x22', '\x22'), ('\x5c', '\x5c'), ('b', '\x08'), ('t', '\x09'), ('n', '\x0a'),
  ('f', '\x0c'), ('r', '\x0d')]

def escape (c : Char) : List Char :=
  match shortEscapes.find? (·.2 = c) with
  | some e => ['\x5c', e.1]
  | none =>
    if c.toNat < 0x20 then
      ['\x5c', 'u', '0', '0', hexDigit (c.toNat / 16), hexDigit (c.toNat % 16)]
    else [c]

def quote (s : String) : List Char := '\x22' :: (s.toList.flatMap escape ++ ['\x22'])

mutual

def write : Json → List Char
  | .null => "null".toList
  | .bool true => "true".toList
  | .bool false => "false".toList
  | .num n => (toString n).toList
  | .str s => quote s
  | .arr items => '[' :: (writeItems items ++ [']'])
  | .obj fields => '\x7b' :: (writeFields fields ++ ['\x7d'])

def writeItems : List Json → List Char
  | [] => []
  | [j] => write j
  | j :: items => write j ++ ',' :: writeItems items

def writeFields : List (String × Json) → List Char
  | [] => []
  | [(key, j)] => quote key ++ ':' :: write j
  | (key, j) :: fields => quote key ++ ':' :: (write j ++ ',' :: writeFields fields)

end

/-! ## Reading -/

def isBlank (c : Char) : Bool := c = ' ' || c = '\x09' || c = '\x0a' || c = '\x0d'

def skipBlanks (text : List Char) : List Char := text.dropWhile isBlank

def hexValue (c : Char) : Option ℕ := hexDigits.findIdx? (· = c.toLower)

/-- The character of an escape with four digits. -/
def unicodeEscape (a b c d : Char) : Option Char := do
  let n := ((← hexValue a) * 16 + (← hexValue b)) * 256 + (← hexValue c) * 16 + (← hexValue d)
  if n.isValidChar then some (Char.ofNat n) else none

def shortEscape (c : Char) : Option Char := if c = '/' then some '/' else shortEscapes.lookup c

/-- A string after its first quotation mark, and what follows it. -/
def stringBody : List Char → Option (List Char × List Char)
  | [] => none
  | '\x22' :: text => some ([], text)
  | '\x5c' :: 'u' :: a :: b :: c :: d :: text =>
    match unicodeEscape a b c d with
    | some c => (stringBody text).map fun s => (c :: s.1, s.2)
    | none => none
  | '\x5c' :: e :: text =>
    match shortEscape e with
    | some c => (stringBody text).map fun s => (c :: s.1, s.2)
    | none => none
  | c :: text =>
    if c = '\x5c' ∨ c.toNat < 0x20 then none
    else (stringBody text).map fun s => (c :: s.1, s.2)
termination_by structural text => text

/-- The digits of an integer, and what follows them. -/
def natural (text : List Char) : Option (ℕ × List Char) :=
  let digits := text.takeWhile Char.isDigit
  let rest := text.dropWhile Char.isDigit
  if digits = [] ∨ digits.head? = some '0' ∧ 2 ≤ digits.length then none
  else if rest.head?.any fun c => c = '.' || c = 'e' || c = 'E' then none
  else some (Nat.ofDigitChars 10 digits 0, rest)

def number : List Char → Option (Json × List Char)
  | '-' :: text => (natural text).map fun n => (.num (-n.1), n.2)
  | text => (natural text).map fun n => (.num n.1, n.2)

mutual

/-- A value and what follows it; the fuel bounds the nesting. -/
def value : ℕ → List Char → Option (Json × List Char)
  | 0, _ => none
  | fuel + 1, text =>
    match skipBlanks text with
    | 'n' :: 'u' :: 'l' :: 'l' :: text => some (.null, text)
    | 't' :: 'r' :: 'u' :: 'e' :: text => some (.bool true, text)
    | 'f' :: 'a' :: 'l' :: 's' :: 'e' :: text => some (.bool false, text)
    | '\x22' :: text => (stringBody text).map fun s => (.str (String.ofList s.1), s.2)
    | '[' :: text =>
      match skipBlanks text with
      | ']' :: text => some (.arr [], text)
      | text => (items fuel text).map fun js => (.arr js.1, js.2)
    | '\x7b' :: text =>
      match skipBlanks text with
      | '\x7d' :: text => some (.obj [], text)
      | text => (members fuel text).map fun fs => (.obj (setEntries [] fs.1), fs.2)
    | text => number text

def items : ℕ → List Char → Option (List Json × List Char)
  | 0, _ => none
  | fuel + 1, text => do
    let (j, text) ← value fuel text
    match skipBlanks text with
    | ',' :: text => (items fuel text).map fun js => (j :: js.1, js.2)
    | ']' :: text => some ([j], text)
    | _ => none

def members : ℕ → List Char → Option (List (String × Json) × List Char)
  | 0, _ => none
  | fuel + 1, text =>
    match skipBlanks text with
    | '\x22' :: text => do
      let (key, text) ← stringBody text
      match skipBlanks text with
      | ':' :: text =>
        let (j, text) ← value fuel text
        match skipBlanks text with
        | ',' :: text =>
          (members fuel text).map fun fs => ((String.ofList key, j) :: fs.1, fs.2)
        | '\x7d' :: text => some ([(String.ofList key, j)], text)
        | _ => none
      | _ => none
    | _ => none

end

/-- `JSON.parse(text)`, where it does not throw. -/
def parse (text : String) : Option Json :=
  match value (text.length + 1) text.toList with
  | some (j, rest) => if skipBlanks rest = [] then some j else none
  | none => none

/-- `JSON.stringify(value)` -/
def stringify (j : Json) : String := String.ofList (write j)

/-! ## Strings -/

section Strings

variable {c : Char} {text : List Char}

theorem stringBody_short {e : Char × Char} (he : e ∈ shortEscapes) :
    stringBody ('\x5c' :: e.1 :: text) = (stringBody text).map fun s => (e.2 :: s.1, s.2) := by
  simp only [shortEscapes, List.mem_cons, List.not_mem_nil, or_false] at he
  rcases he with rfl | rfl | rfl | rfl | rfl | rfl | rfl <;> rfl

theorem stringBody_plain (hquote : c ≠ '\x22') (hslash : c ≠ '\x5c') (hcontrol : ¬c.toNat < 0x20) :
    stringBody (c :: text) = (stringBody text).map fun s => (c :: s.1, s.2) := by
  rw [stringBody.eq_def]
  split
  · next h => cases h
  · next h => exact absurd (List.cons.inj h).1 hquote
  · next h => exact absurd (List.cons.inj h).1 hslash
  · next h => exact absurd (List.cons.inj h).1 hslash
  · next h =>
    obtain ⟨rfl, rfl⟩ := List.cons.inj h
    rw [if_neg (by simp [hslash, hcontrol])]

theorem unicodeEscape_control {n : ℕ} (h : n < 0x20) :
    unicodeEscape '0' '0' (hexDigit (n / 16)) (hexDigit (n % 16)) = some (Char.ofNat n) := by
  revert n
  decide

theorem stringBody_escape (c : Char) (text : List Char) :
    stringBody (escape c ++ text) = (stringBody text).map fun s => (c :: s.1, s.2) := by
  unfold escape
  split
  · next e he =>
    obtain rfl : e.2 = c := by simpa using List.find?_some he
    exact stringBody_short (List.mem_of_find?_eq_some he)
  · next hnone =>
    have hplain : ∀ e ∈ shortEscapes, e.2 ≠ c := by simpa using hnone
    have hquote : c ≠ '\x22' := (hplain ('\x22', '\x22') (by decide)).symm
    have hslash : c ≠ '\x5c' := (hplain ('\x5c', '\x5c') (by decide)).symm
    split_ifs with hcontrol
    · have hchar := unicodeEscape_control hcontrol
      rw [Char.ofNat_toNat] at hchar
      simp [stringBody, hchar]
    · exact stringBody_plain hquote hslash hcontrol

theorem stringBody_flatMap (s : List Char) (text : List Char) :
    stringBody (s.flatMap escape ++ '\x22' :: text) = some (s, text) := by
  induction s with
  | nil => rfl
  | cons c s ih => rw [List.flatMap_cons, List.append_assoc, stringBody_escape, ih, Option.map_some]

theorem quote_append (s : String) (text : List Char) :
    quote s ++ text = '\x22' :: (s.toList.flatMap escape ++ '\x22' :: text) := by
  simp [quote]

end Strings

/-! ## Numbers -/

/-- What may follow a value. -/
def Follows (text : List Char) : Prop :=
  ∀ c, text.head? = some c → c = ',' ∨ c = ']' ∨ c = '\x7d'

section Numbers

variable {text : List Char} {n : ℕ}

theorem isDigit_of_mem_toDigits {c : Char} (h : c ∈ Nat.toDigits 10 n) : c.isDigit = true :=
  Nat.isDigit_of_mem_toDigits (by decide) (by decide) h

/-- Only zero begins with a zero. -/
theorem length_toDigits_of_head (n : ℕ) (h : (Nat.toDigits 10 n).head? = some '0') :
    (Nat.toDigits 10 n).length = 1 := by
  induction n using Nat.strongRecOn with
  | _ n ih =>
    rcases Nat.lt_or_ge n 10 with hlt | hge
    · rw [Nat.toDigits_of_lt_base hlt]
      rfl
    · rw [Nat.toDigits_of_base_le (by decide) hge] at h
      obtain ⟨c, digits, hdigits⟩ :=
        List.exists_cons_of_ne_nil (Nat.toDigits_ne_nil (b := 10) (n := n / 10))
      have hhead : (Nat.toDigits 10 (n / 10)).head? = some '0' := by
        simpa [hdigits] using h
      have hzero : n / 10 < 10 := (Nat.length_toDigits_le_iff (by decide) (by decide)).mp
        (ih (n / 10) (by omega) hhead).le
      rw [Nat.toDigits_of_lt_base hzero, List.head?_cons, Option.some.injEq] at hhead
      have hcases : ∀ d < 10, Nat.digitChar d = '0' → d = 0 := by decide
      have := hcases _ hzero hhead
      omega

theorem not_isDigit_of_follows {c : Char} (h : Follows text) (hc : text.head? = some c) :
    c.isDigit = false ∧ c ≠ '.' ∧ c ≠ 'e' ∧ c ≠ 'E' := by
  rcases h c hc with rfl | rfl | rfl <;> decide

theorem natural_toDigits (h : Follows text) :
    natural (Nat.toDigits 10 n ++ text) = some (n, text) := by
  have hspan : (Nat.toDigits 10 n ++ text).takeWhile Char.isDigit = Nat.toDigits 10 n ∧
      (Nat.toDigits 10 n ++ text).dropWhile Char.isDigit = text := by
    rw [List.takeWhile_append_of_pos fun c => isDigit_of_mem_toDigits,
      List.dropWhile_append_of_pos fun c => isDigit_of_mem_toDigits]
    cases text with
    | nil => simp
    | cons c text =>
      have hc := (not_isDigit_of_follows h rfl).1
      simp [hc]
  have hzero : ¬(Nat.toDigits 10 n = [] ∨ (Nat.toDigits 10 n).head? = some '0' ∧
      2 ≤ (Nat.toDigits 10 n).length) := by
    rintro (hnil | ⟨hhead, hlength⟩)
    · exact Nat.toDigits_ne_nil hnil
    · rw [length_toDigits_of_head n hhead] at hlength
      omega
  have hfraction : (text.head?.any fun c => c = '.' || c = 'e' || c = 'E') = false := by
    cases hhead : text.head? with
    | none => rfl
    | some c =>
      obtain ⟨-, hpoint, hlower, hupper⟩ := not_isDigit_of_follows h hhead
      simp [hpoint, hlower, hupper]
  simp only [natural, hspan.1, hspan.2, if_neg hzero, hfraction, Bool.false_eq_true, if_false,
    Nat.ofDigitChars_ten_toDigits]

theorem number_write (k : ℤ) (h : Follows text) :
    number (write (.num k) ++ text) = some (.num k, text) := by
  cases k with
  | ofNat n =>
    obtain ⟨c, digits, hdigits⟩ :=
      List.exists_cons_of_ne_nil (Nat.toDigits_ne_nil (b := 10) (n := n))
    have hdigit : c.isDigit = true := isDigit_of_mem_toDigits (n := n) (by simp [hdigits])
    have hwrite : write (.num (Int.ofNat n)) = Nat.toDigits 10 n := Nat.toList_repr
    rw [hwrite]
    have hread := natural_toDigits (n := n) h
    rw [hdigits, List.cons_append] at hread ⊢
    unfold number
    split
    · next heq => exact absurd ((List.cons.inj heq).1 ▸ hdigit) (by decide)
    · rw [hread]
      rfl
  | negSucc n =>
    have hwrite : write (.num (Int.negSucc n)) = '-' :: Nat.toDigits 10 (n + 1) := by
      rw [← Nat.toList_repr]
      exact String.toList_append
    rw [hwrite, List.cons_append, number, natural_toDigits h]
    rfl

end Numbers

/-! ## Values -/

mutual

/-- The keys of every object are distinct, as those of a JavaScript object are. -/
def Proper : Json → Prop
  | .arr items => ProperItems items
  | .obj fields => (fields.map (·.1)).Nodup ∧ ProperFields fields
  | _ => True

def ProperItems : List Json → Prop
  | [] => True
  | j :: items => Proper j ∧ ProperItems items

def ProperFields : List (String × Json) → Prop
  | [] => True
  | (_, j) :: fields => Proper j ∧ ProperFields fields

end

section Values

variable {text rest : List Char} {fuel : ℕ}

/-- A value begins with a character that is neither a blank nor a closing bracket. -/
structure Starts (text : List Char) : Prop where
  blank : skipBlanks text = text
  bracket : ∀ rest, text ≠ ']' :: rest
  brace : ∀ rest, text ≠ '\x7d' :: rest

theorem starts_cons {c : Char} (h : isBlank c = false) (hbracket : c ≠ ']') (hbrace : c ≠ '\x7d') :
    Starts (c :: text) where
  blank := by simp [skipBlanks, h]
  bracket rest heq := hbracket (List.cons.inj heq).1
  brace rest heq := hbrace (List.cons.inj heq).1

theorem starts_of_isDigit {c : Char} (h : c.isDigit = true) : Starts (c :: text) := by
  refine starts_cons ?_ ?_ ?_
  · by_contra hblank
    have hcases : c = ' ' ∨ c = '\x09' ∨ c = '\x0a' ∨ c = '\x0d' := by
      simpa [isBlank, or_iff_not_imp_left] using hblank
    rcases hcases with rfl | rfl | rfl | rfl <;> exact absurd h (by decide)
  · rintro rfl
    exact absurd h (by decide)
  · rintro rfl
    exact absurd h (by decide)

theorem exists_write_num (k : ℤ) : ∃ c rest, write (.num k) = c :: rest ∧
    (c = '-' ∨ c.isDigit = true) := by
  cases k with
  | ofNat n =>
    obtain ⟨c, digits, hdigits⟩ :=
      List.exists_cons_of_ne_nil (Nat.toDigits_ne_nil (b := 10) (n := n))
    exact ⟨c, digits, Nat.toList_repr.trans hdigits,
      .inr (isDigit_of_mem_toDigits (n := n) (by simp [hdigits]))⟩
  | negSucc n => exact ⟨'-', _, String.toList_append, .inl rfl⟩

theorem starts_write (j : Json) (text : List Char) : Starts (write j ++ text) := by
  cases j with
  | null => exact starts_cons (by decide) (by decide) (by decide)
  | bool b => cases b <;> exact starts_cons (by decide) (by decide) (by decide)
  | num k =>
    obtain ⟨c, rest, hwrite, hc⟩ := exists_write_num k
    rw [hwrite, List.cons_append]
    rcases hc with rfl | hc
    · exact starts_cons (by decide) (by decide) (by decide)
    · exact starts_of_isDigit hc
  | str s => exact starts_cons (by decide) (by decide) (by decide)
  | arr items => exact starts_cons (by decide) (by decide) (by decide)
  | obj fields => exact starts_cons (by decide) (by decide) (by decide)

theorem write_ne_nil (j : Json) : 0 < (write j).length := by
  rcases Nat.eq_zero_or_pos (write j).length with hzero | hpos
  · have hstarts := (starts_write j [']']).bracket []
    rw [List.length_eq_zero_iff.mp hzero] at hstarts
    exact absurd rfl hstarts
  · exact hpos

theorem value_num (k : ℤ) (h : Follows text) :
    value (fuel + 1) (write (.num k) ++ text) = some (.num k, text) := by
  have hblank := (starts_write (.num k) text).blank
  rw [value, hblank]
  obtain ⟨c, rest, hwrite, hc⟩ := exists_write_num k
  rw [← number_write k h, hwrite, List.cons_append]
  split
  all_goals first
    | rfl
    | next heq =>
      obtain ⟨rfl, -⟩ := List.cons.inj heq
      exact absurd hc (by decide)

theorem follows_cons {c : Char} (h : c = ',' ∨ c = ']' ∨ c = '\x7d') : Follows (c :: text) :=
  fun d hd => by
    rw [List.head?_cons, Option.some.injEq] at hd
    exact hd ▸ h

theorem skipBlanks_cons {c : Char} (h : isBlank c = false) :
    skipBlanks (c :: text) = c :: text := by
  simp [skipBlanks, h]

theorem writeItems_cons_cons (j j' : Json) (js : List Json) :
    writeItems (j :: j' :: js) = write j ++ ',' :: writeItems (j' :: js) := by
  rw [writeItems]
  simp

theorem writeFields_cons_cons (key : String) (j : Json) (f : String × Json)
    (fields : List (String × Json)) : writeFields ((key, j) :: f :: fields) =
      quote key ++ ':' :: (write j ++ ',' :: writeFields (f :: fields)) := by
  rw [writeFields]
  simp

theorem starts_writeItems {js : List Json} (hne : js ≠ []) (text : List Char) :
    Starts (writeItems js ++ text) := by
  match js with
  | [] => exact absurd rfl hne
  | [j] => exact starts_write j text
  | j :: j' :: js =>
    rw [writeItems_cons_cons, List.append_assoc]
    exact starts_write j _

theorem starts_writeFields {fields : List (String × Json)} (hne : fields ≠ [])
    (text : List Char) : Starts (writeFields fields ++ text) := by
  match fields with
  | [] => exact absurd rfl hne
  | [(key, j)] => exact starts_cons (by decide) (by decide) (by decide)
  | (key, j) :: f :: fields =>
    rw [writeFields_cons_cons]
    exact starts_cons (by decide) (by decide) (by decide)

theorem value_items {js : List Json} (h : Starts text)
    (hitems : items fuel text = some (js, rest)) :
    value (fuel + 1) ('[' :: text) = some (.arr js, rest) := by
  rw [value, skipBlanks_cons (by decide)]
  simp only [h.blank]
  split
  · next rest => exact absurd rfl (h.bracket rest)
  · rw [hitems]
    rfl

theorem value_members {fields : List (String × Json)} (h : Starts text)
    (hmembers : members fuel text = some (fields, rest)) :
    value (fuel + 1) ('\x7b' :: text) = some (.obj (setEntries [] fields), rest) := by
  rw [value, skipBlanks_cons (by decide)]
  simp only [h.blank]
  split
  · next rest => exact absurd rfl (h.brace rest)
  · rw [hmembers]
    rfl

mutual

/-- What is written is read back, whatever may follow. -/
theorem value_write (j : Json) (hj : Proper j) (fuel : ℕ) (hfuel : (write j).length < fuel)
    (text : List Char) (h : Follows text) : value fuel (write j ++ text) = some (j, text) := by
  obtain ⟨fuel, rfl⟩ : ∃ n, fuel = n + 1 := ⟨fuel - 1, by omega⟩
  cases j with
  | null => rfl
  | bool b => cases b <;> rfl
  | num k => exact value_num k h
  | str s =>
    rw [write, quote_append, value, skipBlanks_cons (by decide)]
    simp [stringBody_flatMap]
  | arr js =>
    rw [write, List.length_cons, List.length_append, List.length_singleton] at hfuel
    rw [write, List.cons_append, List.append_assoc, List.singleton_append]
    cases js with
    | nil => rfl
    | cons j js =>
      exact value_items (starts_writeItems (by simp) _)
        (items_write (j :: js) (by simp) hj fuel (by omega) text)
  | obj fields =>
    rw [write, List.length_cons, List.length_append, List.length_singleton] at hfuel
    rw [write, List.cons_append, List.append_assoc, List.singleton_append]
    cases fields with
    | nil => rfl
    | cons f fields =>
      have hread := value_members (starts_writeFields (by simp) _)
        (members_write (f :: fields) (by simp) hj.2 fuel (by omega) text)
      rwa [setEntries_of_nodup (m := []) hj.1, List.nil_append] at hread

theorem items_write (js : List Json) (hne : js ≠ []) (hjs : ProperItems js) (fuel : ℕ)
    (hfuel : (writeItems js).length + 1 < fuel) (text : List Char) :
    items fuel (writeItems js ++ ']' :: text) = some (js, text) := by
  obtain ⟨fuel, rfl⟩ : ∃ n, fuel = n + 1 := ⟨fuel - 1, by omega⟩
  match js with
  | [] => exact absurd rfl hne
  | [j] =>
    rw [writeItems] at hfuel ⊢
    rw [items, value_write j hjs.1 fuel (by omega) _ (follows_cons (.inr (.inl rfl)))]
    rfl
  | j :: j' :: js =>
    rw [writeItems_cons_cons, List.length_append, List.length_cons] at hfuel
    rw [writeItems_cons_cons]
    have hpos := write_ne_nil j
    rw [items, List.append_assoc, List.cons_append,
      value_write j hjs.1 fuel (by omega) _ (follows_cons (.inl rfl))]
    have hrest := items_write (j' :: js) (by simp) hjs.2 fuel (by omega) text
    simp [skipBlanks_cons, isBlank, hrest]

theorem members_write (fields : List (String × Json)) (hne : fields ≠ [])
    (hfields : ProperFields fields) (fuel : ℕ) (hfuel : (writeFields fields).length < fuel)
    (text : List Char) :
    members fuel (writeFields fields ++ '\x7d' :: text) = some (fields, text) := by
  obtain ⟨fuel, rfl⟩ : ∃ n, fuel = n + 1 := ⟨fuel - 1, by omega⟩
  match fields with
  | [] => exact absurd rfl hne
  | [(key, j)] =>
    rw [writeFields, List.length_append, List.length_cons] at hfuel
    rw [writeFields, List.append_assoc, quote_append, members, skipBlanks_cons (by decide)]
    simp [stringBody_flatMap, skipBlanks_cons, isBlank,
      value_write j hfields.1 fuel (by omega) _ (follows_cons (.inr (.inr rfl)))]
  | (key, j) :: f :: fields =>
    rw [writeFields_cons_cons, List.length_append, List.length_cons, List.length_append,
      List.length_cons] at hfuel
    have hrest := members_write (f :: fields) (by simp) hfields.2 fuel (by omega) text
    rw [writeFields_cons_cons, List.append_assoc, quote_append, members,
      skipBlanks_cons (by decide)]
    simp [stringBody_flatMap, skipBlanks_cons, isBlank, hrest,
      value_write j hfields.1 fuel (by omega) _ (follows_cons (.inl rfl))]

end

/-- `JSON.parse` reads back what `JSON.stringify` has written. -/
theorem parse_write {j : Json} (h : j.Proper) : parse (stringify j) = some j := by
  have hread : value ((write j).length + 1) (write j) = some (j, []) := by
    simpa using value_write j h _ (Nat.lt_succ_self _) [] fun c hc => by simp at hc
  rw [parse, stringify, String.length_ofList, String.toList_ofList, hread]
  rfl

end Values

end Minikura.Json
