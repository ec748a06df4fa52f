import ChainFollower.Hash

namespace ChainFollower

namespace Sha256

/-- The fractional parts of the cube roots of the first 64 primes. -/
def roundConstants : List UInt32 :=
  [0x428a2f98, 0x71374491, 0xb5c0fbcf, 0xe9b5dba5, 0x3956c25b, 0x59f111f1, 0x923f82a4, 0xab1c5ed5,
    0xd807aa98, 0x12835b01, 0x243185be, 0x550c7dc3, 0x72be5d74, 0x80deb1fe, 0x9bdc06a7, 0xc19bf174,
    0xe49b69c1, 0xefbe4786, 0x0fc19dc6, 0x240ca1cc, 0x2de92c6f, 0x4a7484aa, 0x5cb0a9dc, 0x76f988da,
    0x983e5152, 0xa831c66d, 0xb00327c8, 0xbf597fc7, 0xc6e00bf3, 0xd5a79147, 0x06ca6351, 0x14292967,
    0x27b70a85, 0x2e1b2138, 0x4d2c6dfc, 0x53380d13, 0x650a7354, 0x766a0abb, 0x81c2c92e, 0x92722c85,
    0xa2bfe8a1, 0xa81a664b, 0xc24b8b70, 0xc76c51a3, 0xd192e819, 0xd6990624, 0xf40e3585, 0x106aa070,
    0x19a4c116, 0x1e376c08, 0x2748774c, 0x34b0bcb5, 0x391c0cb3, 0x4ed8aa4a, 0x5b9cca4f, 0x682e6ff3,
    0x748f82ee, 0x78a5636f, 0x84c87814, 0x8cc70208, 0x90befffa, 0xa4506ceb, 0xbef9a3f7, 0xc67178f2]

structure State where
  a : UInt32
  b : UInt32
  c : UInt32
  d : UInt32
  e : UInt32
  f : UInt32
  g : UInt32
  h : UInt32

/-- The fractional parts of the square roots of the first eight primes. -/
def State.start : State :=
  ⟨0x6a09e667, 0xbb67ae85, 0x3c6ef372, 0xa54ff53a, 0x510e527f, 0x9b05688c, 0x1f83d9ab, 0x5be0cd19⟩

def rotate (x : UInt32) (n : UInt32) : UInt32 := (x >>> n) ||| (x <<< (32 - n))

/-- The next word of the schedule from the latest sixteen, newest first. -/
def nextWord : List UInt32 → UInt32
  | [_, w2, _, _, _, _, w7, _, _, _, _, _, _, _, w15, w16] =>
    let s0 := rotate w15 7 ^^^ rotate w15 18 ^^^ (w15 >>> 3)
    let s1 := rotate w2 17 ^^^ rotate w2 19 ^^^ (w2 >>> 10)
    w16 + s0 + w7 + s1
  | _ => 0

/-- The schedule continued by `n` words from its latest sixteen. -/
def extend : Nat → List UInt32 → List UInt32
  | 0, _ => []
  | n + 1, recent =>
    let w := nextWord recent
    w :: extend n (w :: recent.take 15)

def schedule (block : List UInt32) : List UInt32 := block ++ extend 48 block.reverse

def State.round (s : State) (k w : UInt32) : State :=
  let s1 := rotate s.e 6 ^^^ rotate s.e 11 ^^^ rotate s.e 25
  let choice := (s.e &&& s.f) ^^^ (~~~ s.e &&& s.g)
  let t1 := s.h + s1 + choice + k + w
  let s0 := rotate s.a 2 ^^^ rotate s.a 13 ^^^ rotate s.a 22
  let majority := (s.a &&& s.b) ^^^ (s.a &&& s.c) ^^^ (s.b &&& s.c)
  ⟨t1 + (s0 + majority), s.a, s.b, s.c, s.d + t1, s.e, s.f, s.g⟩

def State.add (s t : State) : State :=
  ⟨s.a + t.a, s.b + t.b, s.c + t.c, s.d + t.d, s.e + t.e, s.f + t.f, s.g + t.g, s.h + t.h⟩

def State.compress (s : State) (block : List UInt32) : State :=
  s.add ((roundConstants.zip (schedule block)).foldl (fun s kw => s.round kw.1 kw.2) s)

def bigEndian32 (n : UInt32) : Bytes := (Bytes.ofUInt32 n).reverse

/-- Groups of four bytes as words; a shorter rest is dropped. -/
def words : Bytes → List UInt32
  | a :: b :: c :: d :: r => UInt32.ofNat (Bytes.toNat [d, c, b, a]) :: words r
  | _ => []

/-- The message, one set bit, zeros up to eight bytes short of a whole block, and the length in
bits. -/
def pad (message : Bytes) : Bytes :=
  message ++ [0x80] ++ Bytes.zeros ((119 - message.length % 64) % 64)
    ++ (Bytes.ofUInt64 (UInt64.ofNat (8 * message.length))).reverse

/-- `n` blocks of sixteen words. -/
def blocks : Nat → List UInt32 → List (List UInt32)
  | 0, _ => []
  | n + 1, ws => ws.take 16 :: blocks n (ws.drop 16)

def State.toBytes (s : State) : Bytes :=
  bigEndian32 s.a ++ bigEndian32 s.b ++ bigEndian32 s.c ++ bigEndian32 s.d ++ bigEndian32 s.e
    ++ bigEndian32 s.f ++ bigEndian32 s.g ++ bigEndian32 s.h

theorem State.length_toBytes (s : State) : s.toBytes.length = 32 := by
  simp [State.toBytes, bigEndian32]

def digest (message : Bytes) : Hash :=
  let ws := words (pad message)
  let final := (blocks (ws.length / 16) ws).foldl State.compress State.start
  ⟨final.toBytes, final.length_toBytes⟩

end Sha256

end ChainFollower
