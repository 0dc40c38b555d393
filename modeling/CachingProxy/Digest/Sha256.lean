import CachingProxy.Digest.Hex

/-!
# SHA-256

The digest of FIPS 180-4 over octet lists.  A message is padded to whole blocks of sixty-four
octets, each block is expanded to sixty-four words, and the rounds fold them into eight words.
-/

set_option autoImplicit false

namespace CachingProxy.Sha256

def roundConstants : Array UInt32 := #[
  0x428a2f98, 0x71374491, 0xb5c0fbcf, 0xe9b5dba5, 0x3956c25b, 0x59f111f1, 0x923f82a4, 0xab1c5ed5,
  0xd807aa98, 0x12835b01, 0x243185be, 0x550c7dc3, 0x72be5d74, 0x80deb1fe, 0x9bdc06a7, 0xc19bf174,
  0xe49b69c1, 0xefbe4786, 0x0fc19dc6, 0x240ca1cc, 0x2de92c6f, 0x4a7484aa, 0x5cb0a9dc, 0x76f988da,
  0x983e5152, 0xa831c66d, 0xb00327c8, 0xbf597fc7, 0xc6e00bf3, 0xd5a79147, 0x06ca6351, 0x14292967,
  0x27b70a85, 0x2e1b2138, 0x4d2c6dfc, 0x53380d13, 0x650a7354, 0x766a0abb, 0x81c2c92e, 0x92722c85,
  0xa2bfe8a1, 0xa81a664b, 0xc24b8b70, 0xc76c51a3, 0xd192e819, 0xd6990624, 0xf40e3585, 0x106aa070,
  0x19a4c116, 0x1e376c08, 0x2748774c, 0x34b0bcb5, 0x391c0cb3, 0x4ed8aa4a, 0x5b9cca4f, 0x682e6ff3,
  0x748f82ee, 0x78a5636f, 0x84c87814, 0x8cc70208, 0x90befffa, 0xa4506ceb, 0xbef9a3f7, 0xc67178f2]

/-- The eight words carried from block to block. -/
structure Chain where
  a : UInt32
  b : UInt32
  c : UInt32
  d : UInt32
  e : UInt32
  f : UInt32
  g : UInt32
  h : UInt32

def Chain.start : Chain :=
  ⟨0x6a09e667, 0xbb67ae85, 0x3c6ef372, 0xa54ff53a, 0x510e527f, 0x9b05688c, 0x1f83d9ab, 0x5be0cd19⟩

def Chain.add (x y : Chain) : Chain :=
  ⟨x.a + y.a, x.b + y.b, x.c + y.c, x.d + y.d, x.e + y.e, x.f + y.f, x.g + y.g, x.h + y.h⟩

def Chain.words (x : Chain) : List UInt32 := [x.a, x.b, x.c, x.d, x.e, x.f, x.g, x.h]

def rotateRight (x n : UInt32) : UInt32 := (x >>> n) ||| (x <<< (32 - n))

def expand0 (x : UInt32) : UInt32 := rotateRight x 7 ^^^ rotateRight x 18 ^^^ (x >>> 3)

def expand1 (x : UInt32) : UInt32 := rotateRight x 17 ^^^ rotateRight x 19 ^^^ (x >>> 10)

def mix0 (x : UInt32) : UInt32 := rotateRight x 2 ^^^ rotateRight x 13 ^^^ rotateRight x 22

def mix1 (x : UInt32) : UInt32 := rotateRight x 6 ^^^ rotateRight x 11 ^^^ rotateRight x 25

def choose (x y z : UInt32) : UInt32 := (x &&& y) ^^^ (~~~x &&& z)

def majority (x y z : UInt32) : UInt32 := (x &&& y) ^^^ (x &&& z) ^^^ (y &&& z)

def extendSchedule : Nat → Array UInt32 → Array UInt32
  | 0, words => words
  | count + 1, words =>
      let n := words.size
      extendSchedule count (words.push
        (words.getD (n - 16) 0 + expand0 (words.getD (n - 15) 0) + words.getD (n - 7) 0 +
          expand1 (words.getD (n - 2) 0)))

def round (x : Chain) (word constant : UInt32) : Chain :=
  let t1 := x.h + mix1 x.e + choose x.e x.f x.g + constant + word
  let t2 := mix0 x.a + majority x.a x.b x.c
  ⟨t1 + t2, x.a, x.b, x.c, x.d + t1, x.e, x.f, x.g⟩

def blockWords : Nat → Bytes → List UInt32
  | count + 1, p :: q :: r :: s :: rest =>
      ((p.toUInt32 <<< 24) ||| (q.toUInt32 <<< 16) ||| (r.toUInt32 <<< 8) ||| s.toUInt32) ::
        blockWords count rest
  | _, _ => []

def compress (x : Chain) (block : Bytes) : Chain :=
  let words := extendSchedule 48 (blockWords 16 block).toArray
  let rounds := (List.range 64).foldl
    (fun y i => round y (words.getD i 0) (roundConstants.getD i 0)) x
  x.add rounds

def bigEndian64 (n : Nat) : Bytes :=
  [56, 48, 40, 32, 24, 16, 8, 0].map fun shift => UInt8.ofNat (n >>> shift)

def pad (message : Bytes) : Bytes :=
  let zeros := (55 + 64 - message.length % 64) % 64
  message ++ [0x80] ++ List.replicate zeros 0 ++ bigEndian64 (message.length * 8)

def absorb : Nat → Chain → Bytes → Chain
  | 0, x, _ => x
  | blocks + 1, x, message => absorb blocks (compress x (message.take 64)) (message.drop 64)

def wordBytes (w : UInt32) : Bytes :=
  [(w >>> 24).toUInt8, (w >>> 16).toUInt8, (w >>> 8).toUInt8, w.toUInt8]

def digest (message : Bytes) : Bytes :=
  let padded := pad message
  (absorb (padded.length / 64) .start padded).words.flatMap wordBytes

def hexDigest (message : Bytes) : String := Hex.encode (digest message)

/-- The two messages of the standard, of one block and of two. -/
example : hexDigest (Bytes.ofText "abc") =
      "ba7816bf8f01cfea414140de5dae2223b00361a396177a9cb410ff61f20015ad" ∧
    hexDigest (Bytes.ofText "abcdbcdecdefdefgefghfghighijhijkijkljklmklmnlmnomnopnopq") =
      "248d6a61d20638b8e5c026930c3e6039a33ce45964ff2167f6ecedd419db06c1" := by
  decide +kernel

end CachingProxy.Sha256
