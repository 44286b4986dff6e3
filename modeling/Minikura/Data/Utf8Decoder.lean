import Mathlib.Data.List.Basic

/-!
# Decoding UTF-8 with replacement

The decoder of the Encoding Standard, as `TextDecoder` runs it: every byte is fed to it, what
is malformed becomes U+FFFD, and the end of the input ends a character that is not complete.

## Main definitions

* `Utf8Decoder.byte` — what a byte does to the decoder.
* `textDecode` — `new TextDecoder().decode(bytes)`.

## Main results

* `decodeFrom_encode` — an encoded text is read back.
* `decodeFrom_partial` — the beginning of a character is read as one U+FFFD.
-/

namespace Minikura

/-- The bytes of a character that have not come yet, and where the next of them may lie. -/
structure Utf8Decoder.Pending where
  codePoint : Nat
  remaining : Nat
  lower : Nat
  upper : Nat
deriving Repr, DecidableEq

/-- Nothing is pending between two characters. -/
abbrev Utf8Decoder := Option Utf8Decoder.Pending

namespace Utf8Decoder

def replacement : Char := '\uFFFD'

/-- The first byte of a character. -/
def first (b : UInt8) : List Char × Utf8Decoder :=
  let n := b.toNat
  if n ≤ 0x7F then ([Char.ofNat n], none)
  else if 0xC2 ≤ n ∧ n ≤ 0xDF then ([], some ⟨n % 0x20, 1, 0x80, 0xBF⟩)
  else if 0xE0 ≤ n ∧ n ≤ 0xEF then
    ([], some ⟨n % 0x10, 2, if n = 0xE0 then 0xA0 else 0x80, if n = 0xED then 0x9F else 0xBF⟩)
  else if 0xF0 ≤ n ∧ n ≤ 0xF4 then
    ([], some ⟨n % 0x08, 3, if n = 0xF0 then 0x90 else 0x80, if n = 0xF4 then 0x8F else 0xBF⟩)
  else ([replacement], none)

def byte (d : Utf8Decoder) (b : UInt8) : List Char × Utf8Decoder :=
  match d with
  | none => first b
  | some p =>
    if p.lower ≤ b.toNat ∧ b.toNat ≤ p.upper then
      let codePoint := p.codePoint * 64 + b.toNat % 64
      if p.remaining = 1 then ([Char.ofNat codePoint], none)
      else ([], some ⟨codePoint, p.remaining - 1, 0x80, 0xBF⟩)
    else
      -- the byte is read again as the first of a character
      let (out, d) := first b
      (replacement :: out, d)

def flush : Utf8Decoder → List Char
  | none => []
  | some _ => [replacement]

def decodeFrom : Utf8Decoder → List UInt8 → List Char
  | d, [] => d.flush
  | d, b :: bytes => (d.byte b).1 ++ decodeFrom (d.byte b).2 bytes

end Utf8Decoder

open Utf8Decoder

def byteOrderMark : Char := '\uFEFF'

def stripMark : List Char → List Char
  | [] => []
  | c :: text => if c = byteOrderMark then text else c :: text

/-- `new TextDecoder().decode(bytes)` -/
def textDecode (bytes : List UInt8) : List Char := stripMark (decodeFrom none bytes)

/-- `new TextEncoder().encode(text)` -/
def textEncode (text : List Char) : List UInt8 := text.flatMap String.utf8EncodeChar

namespace Utf8Decoder

/-! ## The bytes of a character -/

/-- No character starts with such a byte. -/
def IsContinuation (b : UInt8) : Prop := 0x80 ≤ b.toNat ∧ b.toNat ≤ 0xBF

/-- The bytes that complete a pending character. -/
inductive Completes (c : Char) : Pending → List UInt8 → Prop where
  | last {p : Pending} {b : UInt8} : IsContinuation b → byte (some p) b = ([c], none) →
      Completes c p [b]
  | more {p p' : Pending} {b : UInt8} {bytes : List UInt8} : IsContinuation b →
      byte (some p) b = ([], some p') → Completes c p' bytes → Completes c p (b :: bytes)

section Bytes

variable {n codePoint lower upper remaining : Nat}

theorem toNat_ofNat (h : n < 0x100) : (UInt8.ofNat n).toNat = n :=
  UInt8.toNat_ofNat_of_lt' h

theorem first_one (h : n ≤ 0x7F) : first (UInt8.ofNat n) = ([Char.ofNat n], none) := by
  simp only [first, toNat_ofNat (show n < 0x100 by omega), if_pos h]

theorem first_two (h : 0xC2 ≤ n ∧ n ≤ 0xDF) :
    first (UInt8.ofNat n) = ([], some ⟨n % 0x20, 1, 0x80, 0xBF⟩) := by
  simp only [first, toNat_ofNat (show n < 0x100 by omega)]
  rw [if_neg (by omega), if_pos h]

theorem first_three (h : 0xE0 ≤ n ∧ n ≤ 0xEF) : first (UInt8.ofNat n) =
    ([], some ⟨n % 0x10, 2, if n = 0xE0 then 0xA0 else 0x80,
      if n = 0xED then 0x9F else 0xBF⟩) := by
  simp only [first, toNat_ofNat (show n < 0x100 by omega)]
  rw [if_neg (by omega), if_neg (by omega), if_pos h]

theorem first_four (h : 0xF0 ≤ n ∧ n ≤ 0xF4) : first (UInt8.ofNat n) =
    ([], some ⟨n % 0x08, 3, if n = 0xF0 then 0x90 else 0x80,
      if n = 0xF4 then 0x8F else 0xBF⟩) := by
  simp only [first, toNat_ofNat (show n < 0x100 by omega)]
  rw [if_neg (by omega), if_neg (by omega), if_neg (by omega), if_pos h]

theorem first_continuation {b : UInt8} (h : IsContinuation b) :
    first b = ([replacement], none) := by
  obtain ⟨hlow, hhigh⟩ := h
  unfold first
  dsimp only
  rw [if_neg (by omega), if_neg (by omega), if_neg (by omega), if_neg (by omega)]

theorem isContinuation_ofNat (h : n < 0x40) : IsContinuation (UInt8.ofNat (n + 0x80)) := by
  rw [IsContinuation, toNat_ofNat (by omega)]
  omega

theorem byte_last (h : n < 0x40) (hlow : lower ≤ n + 0x80) (hhigh : n + 0x80 ≤ upper) :
    byte (some ⟨codePoint, 1, lower, upper⟩) (UInt8.ofNat (n + 0x80)) =
      ([Char.ofNat (codePoint * 64 + n)], none) := by
  simp only [byte, toNat_ofNat (show n + 0x80 < 0x100 by omega), hlow, hhigh, and_self, if_true]
  rw [show (n + 0x80) % 64 = n by omega]

theorem byte_more (h : n < 0x40) (hlow : lower ≤ n + 0x80) (hhigh : n + 0x80 ≤ upper) :
    byte (some ⟨codePoint, remaining + 2, lower, upper⟩) (UInt8.ofNat (n + 0x80)) =
      ([], some ⟨codePoint * 64 + n, remaining + 1, 0x80, 0xBF⟩) := by
  simp only [byte, toNat_ofNat (show n + 0x80 < 0x100 by omega), hlow, hhigh, and_self, if_true]
  rw [show (n + 0x80) % 64 = n by omega, if_neg (by omega)]
  rfl

end Bytes

/-- The first byte says how many are to follow, and they complete the character. -/
theorem encodeChar_cases (c : Char) :
    (∃ b, String.utf8EncodeChar c = [b] ∧ first b = ([c], none)) ∨
    ∃ b p bytes, String.utf8EncodeChar c = b :: bytes ∧ first b = ([], some p) ∧
      Completes c p bytes := by
  have hvalid : c.toNat < 0xD800 ∨ 0xDFFF < c.toNat ∧ c.toNat < 0x110000 := c.valid
  have hchar : ∀ {n : Nat}, n = c.toNat → Char.ofNat n = c := by
    rintro n rfl
    exact Char.ofNat_toNat c
  unfold String.utf8EncodeChar
  simp only
  have hval : c.val.toNat = c.toNat := rfl
  rw [hval]
  generalize hv : c.toNat = v at *
  split_ifs with hone htwo hthree
  · refine .inl ⟨_, rfl, ?_⟩
    rw [first_one hone, hchar rfl]
  · refine .inr ⟨_, _, _, rfl, first_two (by omega), .last (isContinuation_ofNat (by omega)) ?_⟩
    rw [byte_last (by omega) (by omega) (by omega), hchar (by omega)]
  · refine .inr ⟨_, _, _, rfl, first_three (by omega),
      .more (isContinuation_ofNat (by omega)) (byte_more (by omega) ?_ ?_)
      (.last (isContinuation_ofNat (by omega)) ?_)⟩
    · split_ifs <;> omega
    · split_ifs <;> omega
    · rw [byte_last (by omega) (by omega) (by omega), hchar (by omega)]
  · refine .inr ⟨_, _, _, rfl, first_four (by omega),
      .more (isContinuation_ofNat (by omega)) (byte_more (by omega) ?_ ?_)
      (.more (isContinuation_ofNat (by omega)) (byte_more (by omega) (by omega) (by omega))
      (.last (isContinuation_ofNat (by omega)) ?_))⟩
    · split_ifs <;> omega
    · split_ifs <;> omega
    · rw [byte_last (by omega) (by omega) (by omega), hchar (by omega)]

/-! ## Decoding -/

section Decoding

variable {c : Char} {p q r bytes : List UInt8} {text : List Char}

theorem decodeFrom_of_completes {d : Pending} (h : Completes c d q) (bytes : List UInt8) :
    decodeFrom (some d) (q ++ bytes) = c :: decodeFrom none bytes := by
  induction h with
  | last _ hb => simp [decodeFrom, hb]
  | more _ hb _ ih => simp [decodeFrom, hb, ih]

theorem decodeFrom_encodeChar (c : Char) (bytes : List UInt8) :
    decodeFrom none (String.utf8EncodeChar c ++ bytes) = c :: decodeFrom none bytes := by
  rcases encodeChar_cases c with ⟨b, hc, hb⟩ | ⟨b, d, rest, hc, hb, hrest⟩
  · simp [hc, decodeFrom, byte, hb]
  · simp [hc, decodeFrom, byte, hb, decodeFrom_of_completes hrest]

theorem decodeFrom_encode (text : List Char) (bytes : List UInt8) :
    decodeFrom none (textEncode text ++ bytes) = text ++ decodeFrom none bytes := by
  induction text with
  | nil => rfl
  | cons c text ih =>
    rw [textEncode, List.flatMap_cons, List.append_assoc, decodeFrom_encodeChar]
    exact congrArg (c :: ·) ih

theorem decodeFrom_none_nil : decodeFrom none [] = [] := rfl

theorem decodeFrom_textEncode (text : List Char) : decodeFrom none (textEncode text) = text := by
  simpa [decodeFrom_none_nil] using decodeFrom_encode text []

theorem textEncode_injective {text text' : List Char} (h : textEncode text = textEncode text') :
    text = text' := by
  rw [← decodeFrom_textEncode text, h, decodeFrom_textEncode]

theorem decodeFrom_continuation (hr : ∀ b ∈ r, IsContinuation b) (bytes : List UInt8) :
    decodeFrom none (r ++ bytes) =
      List.replicate r.length replacement ++ decodeFrom none bytes := by
  induction r with
  | nil => rfl
  | cons b r ih =>
    have hb : byte none b = ([replacement], none) := first_continuation (hr b (by simp))
    rw [List.cons_append, decodeFrom, hb, ih fun b hb => hr b (by simp [hb])]
    simp [List.replicate_succ]

theorem Completes.isContinuation {d : Pending} (h : Completes c d q) :
    ∀ b ∈ q, IsContinuation b := by
  induction h with
  | last hb _ => simpa using hb
  | more hb _ _ ih => simpa [hb] using ih

/-- A pending character that ends too early. -/
theorem Completes.decodeFrom_prefix {d : Pending} (h : Completes c d (p ++ q)) (hq : q ≠ []) :
    decodeFrom (some d) p = [replacement] := by
  induction p generalizing d with
  | nil => rfl
  | cons b p ih =>
    rw [List.cons_append] at h
    generalize htail : p ++ q = tail at h
    cases h with
    | last _ _ => exact absurd (List.append_eq_nil_iff.mp htail).2 hq
    | more _ hb hrest => simp [decodeFrom, hb, ih (htail ▸ hrest)]

theorem isContinuation_of_encodeChar (h : String.utf8EncodeChar c = p ++ q) (hp : p ≠ []) :
    ∀ b ∈ q, IsContinuation b := by
  obtain ⟨b, p, rfl⟩ := List.exists_cons_of_ne_nil hp
  rcases encodeChar_cases c with ⟨b', hc, -⟩ | ⟨b', d, rest, hc, -, hrest⟩
  · rw [hc] at h
    obtain ⟨-, hnil⟩ : b' = b ∧ p ++ q = [] := by simpa [eq_comm] using h
    simp [(List.append_eq_nil_iff.mp hnil).2]
  · rw [hc] at h
    obtain ⟨-, rfl⟩ := List.cons.inj h
    exact fun a ha => hrest.isContinuation a (by simp [ha])

theorem decodeFrom_partial (h : String.utf8EncodeChar c = p ++ q) (hp : p ≠ [])
    (hq : q ≠ []) : decodeFrom none p = [replacement] := by
  obtain ⟨b, p, rfl⟩ := List.exists_cons_of_ne_nil hp
  rcases encodeChar_cases c with ⟨b', hc, -⟩ | ⟨b', d, rest, hc, hb, hrest⟩
  · rw [hc] at h
    have hnil : p ++ q = [] := by simpa [eq_comm] using (List.cons.inj h).2
    exact absurd (List.append_eq_nil_iff.mp hnil).2 hq
  · rw [hc] at h
    obtain ⟨rfl, rfl⟩ := List.cons.inj h
    simp [decodeFrom, byte, hb, hrest.decodeFrom_prefix hq]

end Decoding

end Utf8Decoder
end Minikura
