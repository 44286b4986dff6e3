import Mathlib.Algebra.Group.Nat.Defs
import Mathlib.Data.List.Basic

/-!
# SHA-256

The hash of a list of bytes, on lists of 32-bit words: padding, the message schedule
of a block, and the rounds. `sum256` gives the eight words of the digest, `hexDigest`
the digest as 64 hexadecimal digits.
-/

namespace Minikura.Sha256

abbrev Word := BitVec 32

/-- The eight words of the state. -/
structure Digest where
  a : Word
  b : Word
  c : Word
  d : Word
  e : Word
  f : Word
  g : Word
  h : Word

def Digest.add (x y : Digest) : Digest :=
  ⟨x.a + y.a, x.b + y.b, x.c + y.c, x.d + y.d, x.e + y.e, x.f + y.f, x.g + y.g, x.h + y.h⟩

def initial : Digest :=
  ⟨0x6a09e667, 0xbb67ae85, 0x3c6ef372, 0xa54ff53a, 0x510e527f, 0x9b05688c, 0x1f83d9ab,
    0x5be0cd19⟩

def roundConstants : List Word := [
  0x428a2f98, 0x71374491, 0xb5c0fbcf, 0xe9b5dba5, 0x3956c25b, 0x59f111f1, 0x923f82a4, 0xab1c5ed5,
  0xd807aa98, 0x12835b01, 0x243185be, 0x550c7dc3, 0x72be5d74, 0x80deb1fe, 0x9bdc06a7, 0xc19bf174,
  0xe49b69c1, 0xefbe4786, 0x0fc19dc6, 0x240ca1cc, 0x2de92c6f, 0x4a7484aa, 0x5cb0a9dc, 0x76f988da,
  0x983e5152, 0xa831c66d, 0xb00327c8, 0xbf597fc7, 0xc6e00bf3, 0xd5a79147, 0x06ca6351, 0x14292967,
  0x27b70a85, 0x2e1b2138, 0x4d2c6dfc, 0x53380d13, 0x650a7354, 0x766a0abb, 0x81c2c92e, 0x92722c85,
  0xa2bfe8a1, 0xa81a664b, 0xc24b8b70, 0xc76c51a3, 0xd192e819, 0xd6990624, 0xf40e3585, 0x106aa070,
  0x19a4c116, 0x1e376c08, 0x2748774c, 0x34b0bcb5, 0x391c0cb3, 0x4ed8aa4a, 0x5b9cca4f, 0x682e6ff3,
  0x748f82ee, 0x78a5636f, 0x84c87814, 0x8cc70208, 0x90befffa, 0xa4506ceb, 0xbef9a3f7, 0xc67178f2]

/-! ## Padding -/

/-- The lowest `width` bytes of a number, most significant first. -/
def bytesOf (n width : Nat) : List UInt8 :=
  (List.range width).reverse.map fun i => UInt8.ofNat (n / 256 ^ i)

/-- A one bit, zeros, and the length in bits, up to a multiple of 64 bytes. -/
def pad (bytes : List UInt8) : List UInt8 :=
  bytes ++ 0x80 :: List.replicate ((119 - bytes.length % 64) % 64) 0 ++
    bytesOf (8 * bytes.length) 8

def words : List UInt8 → List Word
  | a :: b :: c :: d :: rest =>
    BitVec.ofNat 32 (((a.toNat * 256 + b.toNat) * 256 + c.toNat) * 256 + d.toNat) :: words rest
  | _ => []

def blocks : Nat → List Word → List (List Word)
  | 0, _ => []
  | n + 1, ws => ws.take 16 :: blocks n (ws.drop 16)

/-! ## Compression -/

/-- Add `n` words to a message schedule, whose newest word comes first. -/
def extend : Nat → List Word → List Word
  | 0, ws => ws
  | n + 1, ws =>
    let s0 := let x := ws.getD 14 0; x.rotateRight 7 ^^^ x.rotateRight 18 ^^^ x >>> 3
    let s1 := let x := ws.getD 1 0; x.rotateRight 17 ^^^ x.rotateRight 19 ^^^ x >>> 10
    extend n ((s1 + ws.getD 6 0 + s0 + ws.getD 15 0) :: ws)

/-- One round, with its constant and its word of the schedule. -/
def round (s : Digest) (kw : Word × Word) : Digest :=
  let s1 := s.e.rotateRight 6 ^^^ s.e.rotateRight 11 ^^^ s.e.rotateRight 25
  let ch := (s.e &&& s.f) ^^^ (~~~s.e &&& s.g)
  let t1 := s.h + s1 + ch + kw.1 + kw.2
  let s0 := s.a.rotateRight 2 ^^^ s.a.rotateRight 13 ^^^ s.a.rotateRight 22
  let maj := (s.a &&& s.b) ^^^ (s.a &&& s.c) ^^^ (s.b &&& s.c)
  ⟨t1 + (s0 + maj), s.a, s.b, s.c, s.d + t1, s.e, s.f, s.g⟩

def compress (s : Digest) (block : List Word) : Digest :=
  s.add ((roundConstants.zip (extend 48 block.reverse).reverse).foldl round s)

def sum256 (bytes : List UInt8) : Digest :=
  (blocks ((pad bytes).length / 64) (words (pad bytes))).foldl compress initial

set_option maxRecDepth 10000 in
example : (sum256 [0x61, 0x62, 0x63]).a = 0xba7816bf ∧ (sum256 []).h = 0x7852b855 := by
  decide +kernel

def Digest.words (d : Digest) : List Word := [d.a, d.b, d.c, d.d, d.e, d.f, d.g, d.h]

def hexDigits (w : Word) : List Char :=
  (List.range 8).reverse.map fun i => Nat.digitChar (w.toNat / 16 ^ i % 16)

/-- Irreducible, so that no proof computes a digest by accident. -/
@[irreducible] def hexDigest (bytes : List UInt8) : String :=
  String.ofList ((sum256 bytes).words.flatMap hexDigits)

@[simp] theorem length_hexDigest (bytes : List UInt8) : (hexDigest bytes).length = 64 := by
  simp [hexDigest, Digest.words, hexDigits]

end Minikura.Sha256
