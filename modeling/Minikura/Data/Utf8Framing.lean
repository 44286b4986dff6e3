import Mathlib.Tactic.Linarith
import Minikura.Data.Utf8Decoder

/-!
# Decoding a text in pieces

A piece that is decoded by itself is a text of its own: a character that is cut comes out as
several replacements, and a byte order mark at the beginning is dropped. The first makes the
result longer and the second shorter, so byte order marks count negatively in the weight of a
text: then either loss raises it.

## Main definitions

* `IsWhole` — bytes that are the encoding of some text.
* `weight` — the characters of a text, byte order marks counted negatively.

## Main result

* `flatMap_textDecode_iff` — decoding in pieces is decoding at once just if no character is cut
  and no later piece begins with a byte order mark.
-/

namespace Minikura
namespace Utf8Decoder

/-- The encoding of some text. -/
def IsWhole (bytes : List UInt8) : Prop := ∃ text, textEncode text = bytes

instance (bytes : List UInt8) : Decidable (IsWhole bytes) :=
  decidable_of_iff (textEncode (decodeFrom none bytes) = bytes)
    ⟨fun h => ⟨_, h⟩, fun ⟨text, h⟩ => by rw [← h, decodeFrom_textEncode]⟩

/-- The bytes of a byte order mark. -/
def markBytes : List UInt8 := String.utf8EncodeChar byteOrderMark

def charWeight (c : Char) : ℤ := if c = byteOrderMark then -1 else 1

def weight (text : List Char) : ℤ := (text.map charWeight).sum

section Weight

variable {text text' : List Char} {bytes : List UInt8}

@[simp] theorem weight_nil : weight [] = 0 := rfl

@[simp] theorem weight_cons (c : Char) (text : List Char) :
    weight (c :: text) = charWeight c + weight text := by
  simp [weight]

@[simp] theorem weight_append (text text' : List Char) :
    weight (text ++ text') = weight text + weight text' := by
  simp [weight]

theorem charWeight_le (c : Char) : charWeight c ≤ 1 := by
  unfold charWeight
  split_ifs <;> omega

@[simp] theorem charWeight_replacement : charWeight replacement = 1 := by decide

@[simp] theorem weight_replicate (n : ℕ) : weight (List.replicate n replacement) = n := by
  simp [weight]

theorem stripMark_of_ne (h : text.head? ≠ some byteOrderMark) : stripMark text = text := by
  cases text with
  | nil => rfl
  | cons c text => exact if_neg (by simpa using h)

theorem stripMark_cons_mark (text : List Char) :
    stripMark (byteOrderMark :: text) = text := by
  rw [stripMark, if_pos rfl]

/-- Without its mark a text weighs more. -/
theorem weight_lt_stripMark (h : text.head? = some byteOrderMark) :
    weight text < weight (stripMark text) := by
  cases text with
  | nil => simp at h
  | cons c text =>
    obtain rfl : c = byteOrderMark := by simpa using h
    have hmark : charWeight byteOrderMark = -1 := if_pos rfl
    rw [stripMark_cons_mark, weight_cons, hmark]
    omega

theorem weight_le_stripMark (text : List Char) : weight text ≤ weight (stripMark text) := by
  by_cases h : text.head? = some byteOrderMark
  · exact (weight_lt_stripMark h).le
  · rw [stripMark_of_ne h]

theorem stripMark_append (h : text ≠ []) (text' : List Char) :
    stripMark (text ++ text') = stripMark text ++ text' := by
  obtain ⟨c, text, rfl⟩ := List.exists_cons_of_ne_nil h
  rw [List.cons_append, stripMark, stripMark]
  split_ifs <;> rfl

end Weight

/-! ## Where a text is cut -/

section Cut

variable {text : List Char} {chunk rest r : List UInt8}

@[simp] theorem textEncode_append (text text' : List Char) :
    textEncode (text ++ text') = textEncode text ++ textEncode text' :=
  List.flatMap_append

@[simp] theorem textEncode_cons (c : Char) (text : List Char) :
    textEncode (c :: text) = String.utf8EncodeChar c ++ textEncode text := rfl

@[simp] theorem textEncode_nil : textEncode [] = [] := rfl

theorem textEncode_eq_nil : textEncode text = [] ↔ text = [] := by
  constructor
  · intro h
    exact textEncode_injective (h.trans textEncode_nil.symm)
  · rintro rfl
    rfl

/-- A piece of an encoded text ends between two characters or within one. -/
theorem cut_textEncode (h : textEncode text = chunk ++ rest) :
    (∃ before after, text = before ++ after ∧ chunk = textEncode before ∧
      rest = textEncode after) ∨
    ∃ before c after p q, text = before ++ c :: after ∧ chunk = textEncode before ++ p ∧
      String.utf8EncodeChar c = p ++ q ∧ p ≠ [] ∧ q ≠ [] ∧ rest = q ++ textEncode after := by
  induction text generalizing chunk with
  | nil =>
    obtain ⟨rfl, rfl⟩ := List.append_eq_nil_iff.mp h.symm
    exact .inl ⟨[], [], rfl, rfl, rfl⟩
  | cons c text ih =>
    rcases List.append_eq_append_iff.mp h with ⟨chunk', rfl, hrest⟩ | ⟨q, hc, rfl⟩
    · rcases ih hrest with ⟨before, after, rfl, rfl, rfl⟩ |
        ⟨before, c', after, p, q, rfl, rfl, hc, hp, hq, rfl⟩
      · exact .inl ⟨c :: before, after, rfl, rfl, rfl⟩
      · exact .inr ⟨c :: before, c', after, p, q, rfl, by simp, hc, hp, hq, rfl⟩
    · by_cases hchunk : chunk = []
      · subst hchunk
        rw [List.nil_append] at hc
        exact .inl ⟨[], c :: text, rfl, rfl, congrArg (· ++ textEncode text) hc.symm⟩
      · by_cases hq : q = []
        · subst hq
          exact .inl ⟨[c], text, rfl, by simpa using hc.symm, rfl⟩
        · exact .inr ⟨[], c, text, chunk, q, rfl, rfl, hc, hchunk, hq, rfl⟩

theorem markBytes_isPrefix_iff :
    markBytes <+: textEncode text ↔ text.head? = some byteOrderMark := by
  constructor
  · rintro ⟨bytes, h⟩
    have := congrArg (decodeFrom none) h
    rw [markBytes, decodeFrom_encodeChar, decodeFrom_textEncode] at this
    simp [← this]
  · intro h
    cases text with
    | nil => simp at h
    | cons c text =>
      obtain rfl : c = byteOrderMark := by simpa using h
      exact ⟨textEncode text, rfl⟩

/-- What one piece does to the weight: it starts with the end of a character and leaves the end
of another, and nothing is lost only if it is whole. -/
theorem weight_decodeFrom (hr : ∀ b ∈ r, IsContinuation b)
    (h : r ++ textEncode text = chunk ++ rest) :
    ∃ r' text', rest = r' ++ textEncode text' ∧ (∀ b ∈ r', IsContinuation b) ∧
      weight text + r.length ≤ weight (decodeFrom none chunk) + weight text' + r'.length ∧
      (weight text + r.length = weight (decodeFrom none chunk) + weight text' + r'.length →
        r = [] → r' = [] ∧ IsWhole chunk) := by
  rcases List.append_eq_append_iff.mp h with ⟨chunk', rfl, htext⟩ | ⟨r', rfl, rfl⟩
  · rcases cut_textEncode htext with ⟨before, after, rfl, rfl, rfl⟩ |
      ⟨before, c, after, p, q, rfl, rfl, hc, hp, hq, rfl⟩
    · refine ⟨[], after, rfl, by simp, ?_, ?_⟩
      · rw [decodeFrom_continuation hr, decodeFrom_textEncode]
        simp
        linarith
      · rintro - rfl
        exact ⟨rfl, before, rfl⟩
    · have hlength : 0 < q.length := List.length_pos_of_ne_nil hq
      have hlt : weight (before ++ c :: after) + r.length <
          weight (decodeFrom none (r ++ (textEncode before ++ p))) + weight after + q.length := by
        rw [decodeFrom_continuation hr, decodeFrom_encode, decodeFrom_partial hc hp hq]
        have := charWeight_le c
        simp
        omega
      exact ⟨q, after, rfl, isContinuation_of_encodeChar hc hp, hlt.le,
        fun heq => absurd heq hlt.ne⟩
  · refine ⟨r', text, rfl, fun b hb => hr b (by simp [hb]), ?_, ?_⟩
    · have hchunk : ∀ b ∈ chunk, IsContinuation b := fun b hb => hr b (by simp [hb])
      have hdecode := decodeFrom_continuation hchunk []
      rw [List.append_nil] at hdecode
      rw [hdecode]
      simp [decodeFrom_none_nil]
      omega
    · rintro - hnil
      obtain ⟨rfl, rfl⟩ := List.append_eq_nil_iff.mp hnil
      exact ⟨rfl, [], rfl⟩

end Cut

/-! ## Pieces -/

section Pieces

variable {text : List Char} {chunk r : List UInt8} {chunks : List (List UInt8)}

/-- The pieces after the first: a mark at the beginning would not come out. -/
def IsWholeUnmarked (chunk : List UInt8) : Prop := IsWhole chunk ∧ ¬ markBytes <+: chunk

theorem decodeFrom_head?_eq_mark (h : IsWhole chunk) :
    (decodeFrom none chunk).head? = some byteOrderMark ↔ markBytes <+: chunk := by
  obtain ⟨text, rfl⟩ := h
  rw [decodeFrom_textEncode, markBytes_isPrefix_iff]

theorem weight_flatMap_textDecode (hr : ∀ b ∈ r, IsContinuation b)
    (h : r ++ textEncode text = chunks.flatten) :
    weight text + r.length ≤ weight (chunks.flatMap textDecode) ∧
    (weight text + r.length = weight (chunks.flatMap textDecode) → r = [] →
      ∀ chunk ∈ chunks, IsWholeUnmarked chunk) := by
  induction chunks generalizing r text with
  | nil =>
    obtain ⟨rfl, htext⟩ := List.append_eq_nil_iff.mp h
    obtain rfl := textEncode_eq_nil.mp htext
    simp
  | cons chunk chunks ih =>
    obtain ⟨r', text', hrest, hr', hle, hwhole⟩ := weight_decodeFrom hr h
    obtain ⟨hle', hwhole'⟩ := ih hr' hrest.symm
    have hstrip := weight_le_stripMark (decodeFrom none chunk)
    rw [List.flatMap_cons, weight_append, textDecode]
    refine ⟨by omega, fun heq hnil => ?_⟩
    obtain ⟨rfl, hchunk⟩ := hwhole (by omega) hnil
    refine List.forall_mem_cons.mpr ⟨⟨hchunk, fun hmark => ?_⟩, hwhole' (by omega) rfl⟩
    have := weight_lt_stripMark ((decodeFrom_head?_eq_mark hchunk).mpr hmark)
    omega

theorem exists_texts (h : ∀ chunk ∈ chunks, IsWholeUnmarked chunk) :
    chunks.flatten = textEncode (chunks.flatMap textDecode) := by
  induction chunks with
  | nil => rfl
  | cons chunk chunks ih =>
    obtain ⟨⟨hchunk, hmark⟩, hchunks⟩ := List.forall_mem_cons.mp h
    have hdecode : textDecode chunk = decodeFrom none chunk :=
      stripMark_of_ne fun hhead => hmark ((decodeFrom_head?_eq_mark hchunk).mp hhead)
    obtain ⟨text, rfl⟩ := hchunk
    rw [List.flatMap_cons, textEncode_append, List.flatten_cons, ih hchunks, hdecode,
      decodeFrom_textEncode]

theorem isWhole_append_iff (text : List Char) (bytes : List UInt8) :
    IsWhole (textEncode text ++ bytes) ↔ IsWhole bytes := by
  constructor
  · rintro ⟨all, hall⟩
    refine ⟨decodeFrom none bytes, ?_⟩
    have hdecode := congrArg (decodeFrom none) hall
    rw [decodeFrom_textEncode, decodeFrom_encode] at hdecode
    rw [hdecode, textEncode_append] at hall
    exact List.append_cancel_left hall
  · rintro ⟨rest, rfl⟩
    exact ⟨text ++ rest, by simp⟩

theorem textDecode_markBytes_append (bytes : List UInt8) :
    textDecode (markBytes ++ bytes) = decodeFrom none bytes := by
  rw [textDecode, markBytes, decodeFrom_encodeChar, stripMark_cons_mark]

/-- After a mark the first piece goes on as any other, but without losing a mark. -/
theorem isWhole_of_weight_marked (h : chunk ++ chunks.flatten = markBytes ++ textEncode text)
    (hchunk : chunk ≠ [])
    (hweight : weight (textDecode chunk) + weight (chunks.flatMap textDecode) = weight text) :
    IsWhole chunk ∧ ∀ c ∈ chunks, IsWholeUnmarked c := by
  rcases List.append_eq_append_iff.mp h with ⟨q, hq, hrest⟩ | ⟨bytes, rfl, hrest⟩
  · have hcontinues := isContinuation_of_encodeChar hq hchunk
    obtain ⟨hle, hwhole⟩ := weight_flatMap_textDecode hcontinues hrest.symm
    by_cases hnil : q = []
    · subst hnil
      rw [List.append_nil] at hq
      rw [← hq] at hweight ⊢
      have hempty : textDecode markBytes = [] := by
        simpa [decodeFrom_none_nil] using textDecode_markBytes_append []
      simp only [hempty, weight_nil, List.length_nil] at hweight hwhole
      exact ⟨⟨[byteOrderMark], List.append_nil _⟩, hwhole (by omega) trivial⟩
    · have hcut : textDecode chunk = [replacement] := by
        rw [textDecode, decodeFrom_partial hq hchunk hnil]
        rfl
      have hlength : 0 < q.length := List.length_pos_of_ne_nil hnil
      simp only [hcut, weight_cons, charWeight_replacement, weight_nil] at hweight
      omega
  · obtain ⟨r', text', hrest', hr', hle, hwhole⟩ :=
      weight_decodeFrom (r := []) (by simp) hrest
    obtain ⟨hle', hwhole'⟩ := weight_flatMap_textDecode hr' hrest'.symm
    rw [textDecode_markBytes_append] at hweight
    simp only [List.length_nil] at hle hwhole
    obtain ⟨rfl, hbytes⟩ := hwhole (by omega) trivial
    have hmark : markBytes = textEncode [byteOrderMark] := (List.append_nil _).symm
    rw [hmark, isWhole_append_iff]
    simp only [List.length_nil] at hle' hwhole' hle
    exact ⟨hbytes, hwhole' (by omega) trivial⟩

/-- Decoding in pieces is decoding at once just if no character is cut and no piece after the
first begins with a mark. -/
theorem flatMap_textDecode_iff (h : (chunk :: chunks).flatten = textEncode text)
    (hchunk : chunk ≠ []) :
    (chunk :: chunks).flatMap textDecode = textDecode (textEncode text) ↔
      IsWhole chunk ∧ ∀ c ∈ chunks, IsWholeUnmarked c := by
  constructor
  · intro heq
    have hweight := congrArg weight heq
    rw [textDecode, decodeFrom_textEncode] at hweight
    by_cases hmark : text.head? = some byteOrderMark
    · obtain ⟨rest, rfl⟩ := List.head?_eq_some_iff.mp hmark
      rw [stripMark_cons_mark, List.flatMap_cons, weight_append] at hweight
      exact isWhole_of_weight_marked h hchunk hweight
    · obtain ⟨-, hwhole⟩ := weight_flatMap_textDecode (r := []) (by simp) h.symm
      rw [stripMark_of_ne hmark] at hweight
      have hall := hwhole (by rw [hweight, List.length_nil]; omega) rfl
      exact ⟨(hall chunk (by simp)).1, fun c hc => hall c (by simp [hc])⟩
  · rintro ⟨⟨first, rfl⟩, hchunks⟩
    rw [List.flatten_cons, exists_texts hchunks, ← textEncode_append] at h
    obtain rfl := textEncode_injective h
    have hfirst : first ≠ [] := fun hnil => hchunk (textEncode_eq_nil.mpr hnil)
    rw [List.flatMap_cons, textDecode, textDecode, decodeFrom_textEncode, decodeFrom_textEncode,
      stripMark_append hfirst]

end Pieces

end Utf8Decoder
end Minikura
