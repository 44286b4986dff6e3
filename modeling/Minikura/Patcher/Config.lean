import Minikura.Data.Tree

/-!
# Patching YAML files from the environment

`MinikuraEnvironmentConfigPatcher` takes the lines of a `PATCH_YAML_CONFIG` variable,
gathers them into a map of replacements and writes these into the document of the file.
A variable is one run of the body of its loop; loading and dumping are inverse, so the file
is its document. What is thrown outside of the `try` ends the program.

## Main definitions

* `parseValue`, `parseKeyWithIndex`, `parseLine` — a line and what it asks for.
* `gather`, `applyReplacement`, `process` — from the lines to the document.
-/

namespace Minikura.Patcher

abbrev Text := List Char

/-! ## Texts and numbers -/

/-- `Char.isWhitespace` -/
def isWhitespace (c : Char) : Bool :=
  let n := c.toNat
  (0x09 ≤ n && n ≤ 0x0D) || (0x1C ≤ n && n ≤ 0x20) || n == 0xA0 || n == 0x1680 ||
    (0x2000 ≤ n && n ≤ 0x200A) || n == 0x2028 || n == 0x2029 || n == 0x202F || n == 0x205F ||
    n == 0x3000

def trim (t : Text) : Text :=
  ((t.dropWhile isWhitespace).reverse.dropWhile isWhitespace).reverse

/-- The zeros of the decimal digits. -/
def digitZeros : List Nat := [
  0x0030, 0x0660, 0x06F0, 0x07C0, 0x0966, 0x09E6, 0x0A66, 0x0AE6, 0x0B66, 0x0BE6, 0x0C66, 0x0CE6,
  0x0D66, 0x0DE6, 0x0E50, 0x0ED0, 0x0F20, 0x1040, 0x1090, 0x17E0, 0x1810, 0x1946, 0x19D0, 0x1A80,
  0x1A90, 0x1B50, 0x1BB0, 0x1C40, 0x1C50, 0xA620, 0xA8D0, 0xA900, 0xA9D0, 0xA9F0, 0xAA50, 0xABF0,
  0xFF10]

/-- `Character.digit` in base ten. -/
def digitOf (c : Char) : Option Nat :=
  (digitZeros.find? fun z => z ≤ c.toNat && c.toNat ≤ z + 9).map (c.toNat - ·)

def natValue (digits : Text) : Nat :=
  digits.foldl (fun n c => 10 * n + (digitOf c).getD 0) 0

def maxInt : Nat := 2147483647

/-- Whether there is a minus, and what follows the sign. -/
def signed : Text → Bool × Text
  | '-' :: digits => (true, digits)
  | '+' :: digits => (false, digits)
  | digits => (false, digits)

def toIntOrNull (t : Text) : Option Int :=
  let (negative, digits) := signed t
  if digits.isEmpty || !digits.all (fun c => (digitOf c).isSome) then none
  else if negative then
    if natValue digits ≤ maxInt + 1 then some (-(natValue digits : Int)) else none
  else if natValue digits ≤ maxInt then some (natValue digits) else none

/-- `value.equals(word, ignoreCase = true)` for a word of lower case letters. -/
def equalsIgnoreCase (t word : Text) : Bool :=
  t.map (fun c => if c = 'ſ' then 's' else c.toLower) = word

/-! ## Documents -/

/-- `other` are the scalars that patches never write. -/
inductive Scalar where
  | str (t : Text)
  | int (n : Int)
  | bool (b : Bool)
  | null
  | other (text : Text)
deriving Repr, DecidableEq

abbrev Yaml := Tree Scalar Scalar
abbrev Entries := List (Scalar × Yaml)

/-! ## Values -/

theorem length_trim_le (t : Text) : (trim t).length ≤ t.length := by
  have hdrop := (List.dropWhile_suffix isWhitespace (l := t)).length_le
  have hback := (List.dropWhile_suffix isWhitespace
    (l := (t.dropWhile isWhitespace).reverse)).length_le
  rw [List.length_reverse] at hback
  rw [trim, List.length_reverse]
  omega

theorem length_le_of_mem_splitOn {c : Char} {t part : Text} (h : part ∈ t.splitOn c) :
    part.length ≤ t.length := by
  induction t generalizing part with
  | nil => simp_all
  | cons x t ih =>
    rw [List.splitOn_cons_eq_if_modifyHead] at h
    cases hparts : t.splitOn c with
    | nil => exact absurd hparts (List.splitOn_ne_nil _ _)
    | cons head parts =>
      rw [hparts] at h ih
      rw [List.length_cons]
      split_ifs at h
      · rcases List.mem_cons.mp h with rfl | h
        · simp
        · have := ih h
          omega
      · rcases List.mem_cons.mp h with rfl | h
        · have := ih List.mem_cons_self
          rw [List.length_cons]
          omega
        · have := ih (List.mem_cons_of_mem _ h)
          omega

theorem length_getD_splitOn_le (c : Char) (t : Text) (i : Nat) :
    ((t.splitOn c).getD i []).length ≤ t.length := by
  rw [List.getD_eq_getElem?_getD]
  cases h : (t.splitOn c)[i]? with
  | none => simp
  | some part => exact length_le_of_mem_splitOn (List.mem_of_getElem? h)

/-- The text between the first and the last character. -/
def inner (t : Text) : Text := (t.drop 1).dropLast

theorem length_inner_lt {t : Text} (h : t ≠ []) : (inner t).length < t.length := by
  have := List.length_pos_iff.mpr h
  rw [inner, List.length_dropLast, List.length_drop]
  omega

/-- `value.startsWith(c) && value.endsWith(d)` -/
def enclosed (c d : Char) (t : Text) : Bool := t.head? == some c && t.getLast? == some d

/-- `substring` throws for a lone quotation mark. -/
def unquote (t : Text) : Option Yaml :=
  if t.length < 2 then none else some (.leaf (.str (inner t)))

/-- The key and the value of an array's item; without a value, both are the first part. -/
def itemKeyValue (item : Text) : Text × Text :=
  let keyValue := item.splitOn '='
  (keyValue.getD 0 [], keyValue.getD (if keyValue.length = 2 then 1 else 0) [])

/-- `parseValue`, with the items of `parseArray`; it may throw. -/
def parseValue (t : Text) : Option Yaml :=
  if equalsIgnoreCase t "true".toList then some (.leaf (.bool true))
  else if equalsIgnoreCase t "false".toList then some (.leaf (.bool false))
  else if enclosed '\x22' '\x22' t then unquote t
  else if enclosed '\x27' '\x27' t then unquote t
  else match toIntOrNull t with
    | some n => some (.leaf (.int n))
    | none =>
      if _harray : enclosed '[' ']' t then do
        let items ← ((trim (inner t)).splitOn ',').attach.mapM fun ⟨item, _hmem⟩ =>
          (parseValue (trim (itemKeyValue item).2)).map fun value =>
            Tree.map [(Scalar.str (trim (itemKeyValue item).1), value)]
        return .list items
      else some (.leaf (.str t))
termination_by t.length
decreasing_by
  have hne : t ≠ [] := by
    rintro rfl
    simp [enclosed] at _harray
  have hinner := length_inner_lt hne
  have hitems := length_trim_le (inner t)
  have hlength := length_le_of_mem_splitOn _hmem
  have hvalue : (itemKeyValue item).2.length ≤ item.length := length_getD_splitOn_le _ _ _
  have htrim := length_trim_le (itemKeyValue item).2
  omega

/-! ## Lines -/

/-- Split at the pipes without a backslash before them. -/
def splitPipes : Bool → Text → List Text
  | _, [] => [[]]
  | escaped, c :: cs =>
    if c = '|' ∧ !escaped then [] :: splitPipes false cs
    else match splitPipes (c == '\x5c') cs with
      | [] => [[c]]
      | line :: lines => (c :: line) :: lines

/-- `it.replace("\\|", "|")` -/
def unescapePipes : Text → Text
  | [] => []
  | '\x5c' :: '|' :: cs => '|' :: unescapePipes cs
  | c :: cs => c :: unescapePipes cs

def splitWithEscapedPipe (value : Text) : List Text := (splitPipes false value).map unescapePipes

def isAsciiDigit (c : Char) : Bool := '0' ≤ c && c ≤ '9'

/-- The groups of `([^\[]+)(?:\[(\d+)\])?(\.[^\[]+)*` on a whole key. The first group ends at
the first bracket, and the last one takes what follows in one repetition. -/
def matchKey (key : Text) : Option (Text × Text × Text) :=
  let base := key.takeWhile (· ≠ '[')
  if base = [] then none
  else match key.dropWhile (· ≠ '[') with
    | [] => some (base, [], [])
    | _ :: bracket =>
      let digits := bracket.takeWhile isAsciiDigit
      match digits, bracket.dropWhile isAsciiDigit with
      | _ :: _, ']' :: sub =>
        if sub = [] ∨ (sub.head? = some '.' ∧ 2 ≤ sub.length ∧ '[' ∉ sub) then
          some (base, digits, sub)
        else none
      | _, _ => none

def parseKeyWithIndex (key : Text) : Text × Option Nat × Text :=
  match matchKey key with
  | some (baseKey, index, subKey) =>
    (baseKey, (toIntOrNull index).map Int.toNat, subKey.dropWhile (· = '.'))
  | none => (key, none, [])

/-- What a line asks for. -/
structure Edit where
  baseKey : Text
  index : Option Nat
  subKey : Text
  value : Yaml

/-- A line without an equals sign is skipped; a value may make it throw. -/
def parseLine (line : Text) : Option (Option Edit) :=
  if '=' ∉ line then some none
  else
    let key := trim (line.takeWhile (· ≠ '='))
    let (baseKey, index, subKey) := parseKeyWithIndex key
    (parseValue (trim ((line.dropWhile (· ≠ '=')).drop 1))).map fun value =>
      some ⟨baseKey, index, subKey, value⟩

/-! ## Replacements -/

/-- `array` is a list that lines have indexed: first the items of an array value, which
cannot be changed, then mappings. -/
inductive Replacement where
  | value (t : Yaml)
  | array (fixed : List Yaml) (items : List Entries)

def Replacement.tree : Replacement → Yaml
  | .value t => t
  | .array fixed items => .list (fixed ++ items.map .map)

/-- Fill up with empty mappings to an index, and set a key of the mapping there. -/
def setItem (items : List Entries) (index : Nat) (subKey : Text) (value : Yaml) :
    List Entries :=
  (items ++ List.replicate (index + 1 - items.length) []).modify index
    fun item => setEntry item (.str subKey) value

/-- Set a key of the list at a base key. Casting anything else, or changing an item of an
array value, throws. -/
def setIndexed (replacement : Option Replacement) (index : Nat) (subKey : Text) (value : Yaml) :
    Option Replacement :=
  match replacement with
  | none => some (.array [] (setItem [] index subKey value))
  | some (.array fixed items) =>
    if index < fixed.length then none
    else some (.array fixed (setItem items (index - fixed.length) subKey value))
  | some (.value (.list fixed)) =>
    if index < fixed.length then none
    else some (.array fixed (setItem [] (index - fixed.length) subKey value))
  | some (.value _) => none

def Edit.apply (e : Edit) (replacement : Option Replacement) : Option Replacement :=
  match e.index with
  | none => some (.value e.value)
  | some index => setIndexed replacement index e.subKey e.value

/-- The map of replacements after the lines, if none throws. -/
def gather (replacements : List (Text × Replacement)) :
    List Edit → Option (List (Text × Replacement))
  | [] => some replacements
  | e :: edits => do
    let replacement ← e.apply (replacements.lookup e.baseKey)
    gather (setEntry replacements e.baseKey replacement) edits

/-! ## Documents -/

def applyReplacement (data : Entries) (keys : List Text) (value : Yaml) : Entries :=
  Tree.put data (keys.map .str) value

def updateYaml (yamlData : Entries) (replacements : List (Text × Replacement)) : Entries :=
  replacements.foldl
    (fun data r => applyReplacement data (r.1.splitOn '.') r.2.tree) yamlData

inductive Outcome where
  | skipped
  | thrown
  | written (yamlData : Entries)

/-- What becomes of the document of the file named by the first line. -/
def process (value : Text) (yamlData : Entries) : Outcome :=
  let lines := splitWithEscapedPipe value
  if lines.length < 2 then .skipped
  else match (lines.drop 1).mapM parseLine with
    | none => .thrown
    | some edits =>
      match gather [] edits.reduceOption with
      | none => .thrown
      | some replacements => .written (updateYaml yamlData replacements)

end Minikura.Patcher
