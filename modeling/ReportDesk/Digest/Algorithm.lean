import ReportDesk.Text.Character

/-!
# Digest algorithms by name
-/

namespace ReportDesk.Digest

/-!
## Messages as blocks of words

A message is extended by the byte `80`, zeros and its length in bits, so that
it fills whole blocks; a block is then read as words.
-/

def bigEndian (count n : Nat) : List UInt8 :=
  (List.range count).reverse.map fun i => (n >>> (8 * i)).toUInt8

def littleEndian (count n : Nat) : List UInt8 :=
  (bigEndian count n).reverse

def ofBigEndian (bytes : List UInt8) : Nat :=
  bytes.foldl (fun n b => n * 256 + b.toNat) 0

def ofLittleEndian (bytes : List UInt8) : Nat :=
  ofBigEndian bytes.reverse

def pieces {α : Type} (size : Nat) : Nat → List α → List (List α)
  | _, [] => []
  | 0, xs => [xs]
  | fuel + 1, xs => xs.take size :: pieces size fuel (xs.drop size)

/--
The blocks of a message: `size` bytes each, the last `lengthBytes` of them
holding the length in bits as written by `encode`.
-/
def messageBlocks (size lengthBytes : Nat) (encode : Nat → Nat → List UInt8)
    (message : List UInt8) : List (List UInt8) :=
  let length := message.length
  let zeros := (2 * size - 1 - lengthBytes - length % size) % size
  let extended :=
    message ++ 0x80 :: List.replicate zeros 0 ++ encode lengthBytes (8 * length)
  pieces size extended.length extended

def hexUpper (bytes : List UInt8) : String :=
  String.ofList <| bytes.flatMap fun b =>
    [Nat.digitChar (b.toNat / 16), Nat.digitChar (b.toNat % 16)].map
      Char.toUpper

def rotateLeft32 (x : UInt32) (n : UInt32) : UInt32 :=
  x <<< n ||| x >>> (32 - n)

def rotateRight32 (x : UInt32) (n : UInt32) : UInt32 :=
  x >>> n ||| x <<< (32 - n)

def rotateRight64 (x : UInt64) (n : UInt64) : UInt64 :=
  x >>> n ||| x <<< (64 - n)

end ReportDesk.Digest

namespace ReportDesk.Digest.Md5

/-! ## MD5 -/

structure State where
  a : UInt32
  b : UInt32
  c : UInt32
  d : UInt32

def initial : State := ⟨0x67452301, 0xefcdab89, 0x98badcfe, 0x10325476⟩

def constants : List UInt32 := [
    0xd76aa478, 0xe8c7b756, 0x242070db, 0xc1bdceee, 0xf57c0faf, 0x4787c62a,
    0xa8304613, 0xfd469501, 0x698098d8, 0x8b44f7af, 0xffff5bb1, 0x895cd7be,
    0x6b901122, 0xfd987193, 0xa679438e, 0x49b40821, 0xf61e2562, 0xc040b340,
    0x265e5a51, 0xe9b6c7aa, 0xd62f105d, 0x02441453, 0xd8a1e681, 0xe7d3fbc8,
    0x21e1cde6, 0xc33707d6, 0xf4d50d87, 0x455a14ed, 0xa9e3e905, 0xfcefa3f8,
    0x676f02d9, 0x8d2a4c8a, 0xfffa3942, 0x8771f681, 0x6d9d6122, 0xfde5380c,
    0xa4beea44, 0x4bdecfa9, 0xf6bb4b60, 0xbebfbc70, 0x289b7ec6, 0xeaa127fa,
    0xd4ef3085, 0x04881d05, 0xd9d4d039, 0xe6db99e5, 0x1fa27cf8, 0xc4ac5665,
    0xf4292244, 0x432aff97, 0xab9423a7, 0xfc93a039, 0x655b59c3, 0x8f0ccc92,
    0xffeff47d, 0x85845dd1, 0x6fa87e4f, 0xfe2ce6e0, 0xa3014314, 0x4e0811a1,
    0xf7537e82, 0xbd3af235, 0x2ad7d2bb, 0xeb86d391]

def rotations : List (List UInt32) :=
  [[7, 12, 17, 22], [5, 9, 14, 20], [4, 11, 16, 23], [6, 10, 15, 21]]

def step (block : Array UInt32) (s : State) (i : Nat) (constant : UInt32) :
    State :=
  let (mixed, index) : UInt32 × Nat :=
    match i / 16 with
    | 0 => ((s.b &&& s.c) ||| (~~~s.b &&& s.d), i)
    | 1 => ((s.d &&& s.b) ||| (~~~s.d &&& s.c), (5 * i + 1) % 16)
    | 2 => (s.b ^^^ s.c ^^^ s.d, (3 * i + 5) % 16)
    | _ => (s.c ^^^ (s.b ||| ~~~s.d), (7 * i) % 16)
  let amount := ((rotations.getD (i / 16) []).getD (i % 4) 0)
  let sum := s.a + mixed + constant + block.getD index 0
  ⟨s.d, s.b + rotateLeft32 sum amount, s.b, s.c⟩

def compress (s : State) (block : List UInt8) : State :=
  let words :=
    ((pieces 4 16 block).map fun w => (ofLittleEndian w).toUInt32).toArray
  let t := constants.zipIdx.foldl (fun t (k, i) => step words t i k) s
  ⟨s.a + t.a, s.b + t.b, s.c + t.c, s.d + t.d⟩

def digest (message : List UInt8) : List UInt8 :=
  let s := (messageBlocks 64 8 littleEndian message).foldl compress initial
  [s.a, s.b, s.c, s.d].flatMap fun w => littleEndian 4 w.toNat

end ReportDesk.Digest.Md5

namespace ReportDesk.Digest.Sha1

/-! ## SHA-1 -/

structure State where
  a : UInt32
  b : UInt32
  c : UInt32
  d : UInt32
  e : UInt32

def initial : State :=
  ⟨0x67452301, 0xefcdab89, 0x98badcfe, 0x10325476, 0xc3d2e1f0⟩

def schedule : Nat → Array UInt32 → Array UInt32
  | 0, words => words
  | count + 1, words =>
      let back (i : Nat) := words.getD (words.size - i) 0
      schedule count
        (words.push
          (rotateLeft32 (back 3 ^^^ back 8 ^^^ back 14 ^^^ back 16) 1))

def step (s : State) (i : Nat) (word : UInt32) : State :=
  let (mixed, constant) : UInt32 × UInt32 :=
    match i / 20 with
    | 0 => ((s.b &&& s.c) ||| (~~~s.b &&& s.d), 0x5a827999)
    | 1 => (s.b ^^^ s.c ^^^ s.d, 0x6ed9eba1)
    | 2 => ((s.b &&& s.c) ||| (s.b &&& s.d) ||| (s.c &&& s.d), 0x8f1bbcdc)
    | _ => (s.b ^^^ s.c ^^^ s.d, 0xca62c1d6)
  ⟨rotateLeft32 s.a 5 + mixed + s.e + constant + word, s.a,
    rotateLeft32 s.b 30, s.c, s.d⟩

def compress (s : State) (block : List UInt8) : State :=
  let words :=
    ((pieces 4 16 block).map fun w => (ofBigEndian w).toUInt32).toArray
  let t := (schedule 64 words).toList.zipIdx.foldl
    (fun t (w, i) => step t i w) s
  ⟨s.a + t.a, s.b + t.b, s.c + t.c, s.d + t.d, s.e + t.e⟩

def digest (message : List UInt8) : List UInt8 :=
  let s := (messageBlocks 64 8 bigEndian message).foldl compress initial
  [s.a, s.b, s.c, s.d, s.e].flatMap fun w => bigEndian 4 w.toNat

end ReportDesk.Digest.Sha1

namespace ReportDesk.Digest.Sha256

/-! ## SHA-2 on words of 32 bits -/

structure State where
  a : UInt32
  b : UInt32
  c : UInt32
  d : UInt32
  e : UInt32
  f : UInt32
  g : UInt32
  h : UInt32

def initial256 : State := ⟨
    0x6a09e667, 0xbb67ae85, 0x3c6ef372, 0xa54ff53a,
    0x510e527f, 0x9b05688c, 0x1f83d9ab, 0x5be0cd19⟩

def initial224 : State := ⟨
    0xc1059ed8, 0x367cd507, 0x3070dd17, 0xf70e5939,
    0xffc00b31, 0x68581511, 0x64f98fa7, 0xbefa4fa4⟩

def constants : List UInt32 := [
    0x428a2f98, 0x71374491, 0xb5c0fbcf, 0xe9b5dba5, 0x3956c25b, 0x59f111f1,
    0x923f82a4, 0xab1c5ed5, 0xd807aa98, 0x12835b01, 0x243185be, 0x550c7dc3,
    0x72be5d74, 0x80deb1fe, 0x9bdc06a7, 0xc19bf174, 0xe49b69c1, 0xefbe4786,
    0x0fc19dc6, 0x240ca1cc, 0x2de92c6f, 0x4a7484aa, 0x5cb0a9dc, 0x76f988da,
    0x983e5152, 0xa831c66d, 0xb00327c8, 0xbf597fc7, 0xc6e00bf3, 0xd5a79147,
    0x06ca6351, 0x14292967, 0x27b70a85, 0x2e1b2138, 0x4d2c6dfc, 0x53380d13,
    0x650a7354, 0x766a0abb, 0x81c2c92e, 0x92722c85, 0xa2bfe8a1, 0xa81a664b,
    0xc24b8b70, 0xc76c51a3, 0xd192e819, 0xd6990624, 0xf40e3585, 0x106aa070,
    0x19a4c116, 0x1e376c08, 0x2748774c, 0x34b0bcb5, 0x391c0cb3, 0x4ed8aa4a,
    0x5b9cca4f, 0x682e6ff3, 0x748f82ee, 0x78a5636f, 0x84c87814, 0x8cc70208,
    0x90befffa, 0xa4506ceb, 0xbef9a3f7, 0xc67178f2]

def schedule : Nat → Array UInt32 → Array UInt32
  | 0, words => words
  | count + 1, words =>
      let back (i : Nat) := words.getD (words.size - i) 0
      let x := back 15
      let y := back 2
      let small := rotateRight32 x 7 ^^^ rotateRight32 x 18 ^^^ x >>> 3
      let large := rotateRight32 y 17 ^^^ rotateRight32 y 19 ^^^ y >>> 10
      schedule count (words.push (back 16 + small + back 7 + large))

def step (s : State) (word constant : UInt32) : State :=
  let sumE := rotateRight32 s.e 6 ^^^ rotateRight32 s.e 11 ^^^
    rotateRight32 s.e 25
  let choice := (s.e &&& s.f) ^^^ (~~~s.e &&& s.g)
  let first := s.h + sumE + choice + constant + word
  let sumA := rotateRight32 s.a 2 ^^^ rotateRight32 s.a 13 ^^^
    rotateRight32 s.a 22
  let majority := (s.a &&& s.b) ^^^ (s.a &&& s.c) ^^^ (s.b &&& s.c)
  ⟨first + sumA + majority, s.a, s.b, s.c, s.d + first, s.e, s.f, s.g⟩

def compress (s : State) (block : List UInt8) : State :=
  let words :=
    ((pieces 4 16 block).map fun w => (ofBigEndian w).toUInt32).toArray
  let t := ((schedule 48 words).toList.zip constants).foldl
    (fun t (w, k) => step t w k) s
  ⟨s.a + t.a, s.b + t.b, s.c + t.c, s.d + t.d, s.e + t.e, s.f + t.f, s.g + t.g,
    s.h + t.h⟩

def digest (start : State) (length : Nat) (message : List UInt8) : List UInt8 :=
  let s := (messageBlocks 64 8 bigEndian message).foldl compress start
  ([s.a, s.b, s.c, s.d, s.e, s.f, s.g, s.h].flatMap fun w =>
    bigEndian 4 w.toNat).take length

end ReportDesk.Digest.Sha256

namespace ReportDesk.Digest.Sha512

/-! ## SHA-2 on words of 64 bits -/

structure State where
  a : UInt64
  b : UInt64
  c : UInt64
  d : UInt64
  e : UInt64
  f : UInt64
  g : UInt64
  h : UInt64

def initial512 : State := ⟨
    0x6a09e667f3bcc908, 0xbb67ae8584caa73b,
    0x3c6ef372fe94f82b, 0xa54ff53a5f1d36f1,
    0x510e527fade682d1, 0x9b05688c2b3e6c1f,
    0x1f83d9abfb41bd6b, 0x5be0cd19137e2179⟩

def initial384 : State := ⟨
    0xcbbb9d5dc1059ed8, 0x629a292a367cd507,
    0x9159015a3070dd17, 0x152fecd8f70e5939,
    0x67332667ffc00b31, 0x8eb44a8768581511,
    0xdb0c2e0d64f98fa7, 0x47b5481dbefa4fa4⟩

def constants : List UInt64 := [
    0x428a2f98d728ae22, 0x7137449123ef65cd, 0xb5c0fbcfec4d3b2f,
    0xe9b5dba58189dbbc, 0x3956c25bf348b538, 0x59f111f1b605d019,
    0x923f82a4af194f9b, 0xab1c5ed5da6d8118, 0xd807aa98a3030242,
    0x12835b0145706fbe, 0x243185be4ee4b28c, 0x550c7dc3d5ffb4e2,
    0x72be5d74f27b896f, 0x80deb1fe3b1696b1, 0x9bdc06a725c71235,
    0xc19bf174cf692694, 0xe49b69c19ef14ad2, 0xefbe4786384f25e3,
    0x0fc19dc68b8cd5b5, 0x240ca1cc77ac9c65, 0x2de92c6f592b0275,
    0x4a7484aa6ea6e483, 0x5cb0a9dcbd41fbd4, 0x76f988da831153b5,
    0x983e5152ee66dfab, 0xa831c66d2db43210, 0xb00327c898fb213f,
    0xbf597fc7beef0ee4, 0xc6e00bf33da88fc2, 0xd5a79147930aa725,
    0x06ca6351e003826f, 0x142929670a0e6e70, 0x27b70a8546d22ffc,
    0x2e1b21385c26c926, 0x4d2c6dfc5ac42aed, 0x53380d139d95b3df,
    0x650a73548baf63de, 0x766a0abb3c77b2a8, 0x81c2c92e47edaee6,
    0x92722c851482353b, 0xa2bfe8a14cf10364, 0xa81a664bbc423001,
    0xc24b8b70d0f89791, 0xc76c51a30654be30, 0xd192e819d6ef5218,
    0xd69906245565a910, 0xf40e35855771202a, 0x106aa07032bbd1b8,
    0x19a4c116b8d2d0c8, 0x1e376c085141ab53, 0x2748774cdf8eeb99,
    0x34b0bcb5e19b48a8, 0x391c0cb3c5c95a63, 0x4ed8aa4ae3418acb,
    0x5b9cca4f7763e373, 0x682e6ff3d6b2b8a3, 0x748f82ee5defb2fc,
    0x78a5636f43172f60, 0x84c87814a1f0ab72, 0x8cc702081a6439ec,
    0x90befffa23631e28, 0xa4506cebde82bde9, 0xbef9a3f7b2c67915,
    0xc67178f2e372532b, 0xca273eceea26619c, 0xd186b8c721c0c207,
    0xeada7dd6cde0eb1e, 0xf57d4f7fee6ed178, 0x06f067aa72176fba,
    0x0a637dc5a2c898a6, 0x113f9804bef90dae, 0x1b710b35131c471b,
    0x28db77f523047d84, 0x32caab7b40c72493, 0x3c9ebe0a15c9bebc,
    0x431d67c49c100d4c, 0x4cc5d4becb3e42b6, 0x597f299cfc657e2a,
    0x5fcb6fab3ad6faec, 0x6c44198c4a475817]

def schedule : Nat → Array UInt64 → Array UInt64
  | 0, words => words
  | count + 1, words =>
      let back (i : Nat) := words.getD (words.size - i) 0
      let x := back 15
      let y := back 2
      let small := rotateRight64 x 1 ^^^ rotateRight64 x 8 ^^^ x >>> 7
      let large := rotateRight64 y 19 ^^^ rotateRight64 y 61 ^^^ y >>> 6
      schedule count (words.push (back 16 + small + back 7 + large))

def step (s : State) (word constant : UInt64) : State :=
  let sumE := rotateRight64 s.e 14 ^^^ rotateRight64 s.e 18 ^^^
    rotateRight64 s.e 41
  let choice := (s.e &&& s.f) ^^^ (~~~s.e &&& s.g)
  let first := s.h + sumE + choice + constant + word
  let sumA := rotateRight64 s.a 28 ^^^ rotateRight64 s.a 34 ^^^
    rotateRight64 s.a 39
  let majority := (s.a &&& s.b) ^^^ (s.a &&& s.c) ^^^ (s.b &&& s.c)
  ⟨first + sumA + majority, s.a, s.b, s.c, s.d + first, s.e, s.f, s.g⟩

def compress (s : State) (block : List UInt8) : State :=
  let words :=
    ((pieces 8 16 block).map fun w => (ofBigEndian w).toUInt64).toArray
  let t := ((schedule 64 words).toList.zip constants).foldl
    (fun t (w, k) => step t w k) s
  ⟨s.a + t.a, s.b + t.b, s.c + t.c, s.d + t.d, s.e + t.e, s.f + t.f, s.g + t.g,
    s.h + t.h⟩

def digest (start : State) (length : Nat) (message : List UInt8) : List UInt8 :=
  let s := (messageBlocks 128 16 bigEndian message).foldl compress start
  ([s.a, s.b, s.c, s.d, s.e, s.f, s.g, s.h].flatMap fun w =>
    bigEndian 8 w.toNat).take length

end ReportDesk.Digest.Sha512

namespace ReportDesk.Digest

/-! ## Names -/

inductive Algorithm where
  | md5
  | sha1
  | sha224
  | sha256
  | sha384
  | sha512
deriving DecidableEq, Repr

namespace Algorithm

def name : Algorithm → String
  | .md5 => "Md5"
  | .sha1 => "Sha1"
  | .sha224 => "Sha224"
  | .sha256 => "Sha256"
  | .sha384 => "Sha384"
  | .sha512 => "Sha512"

def digest : Algorithm → List UInt8 → List UInt8
  | .md5 => Md5.digest
  | .sha1 => Sha1.digest
  | .sha224 => Sha256.digest Sha256.initial224 28
  | .sha256 => Sha256.digest Sha256.initial256 32
  | .sha384 => Sha512.digest Sha512.initial384 48
  | .sha512 => Sha512.digest Sha512.initial512 64

def hexDigest (a : Algorithm) (message : List UInt8) : String :=
  hexUpper (a.digest message)

/-- Hyphens and the case of ASCII letters do not matter in a name. -/
def normalName (text : String) : String :=
  String.ofList
    (((Text.trimChars text.toList).filter (· != '-')).map Char.toUpper)

def ofName? (text : String) : Option Algorithm :=
  match normalName text with
  | "MD5" => some .md5
  | "SHA1" => some .sha1
  | "SHA224" => some .sha224
  | "SHA256" => some .sha256
  | "SHA384" => some .sha384
  | "SHA512" => some .sha512
  | _ => none

end Algorithm

end ReportDesk.Digest
