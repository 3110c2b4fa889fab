import ConferWorker.ByteSlices

/-! SHA-512 and SHA-384, word by word. -/
namespace ConferWorker

namespace Sha2

abbrev Word := BitVec 64

/-- The round constants. -/
def constants : List ℕ :=
  [0x428a2f98d728ae22, 0x7137449123ef65cd, 0xb5c0fbcfec4d3b2f, 0xe9b5dba58189dbbc,
    0x3956c25bf348b538, 0x59f111f1b605d019, 0x923f82a4af194f9b, 0xab1c5ed5da6d8118,
    0xd807aa98a3030242, 0x12835b0145706fbe, 0x243185be4ee4b28c, 0x550c7dc3d5ffb4e2,
    0x72be5d74f27b896f, 0x80deb1fe3b1696b1, 0x9bdc06a725c71235, 0xc19bf174cf692694,
    0xe49b69c19ef14ad2, 0xefbe4786384f25e3, 0x0fc19dc68b8cd5b5, 0x240ca1cc77ac9c65,
    0x2de92c6f592b0275, 0x4a7484aa6ea6e483, 0x5cb0a9dcbd41fbd4, 0x76f988da831153b5,
    0x983e5152ee66dfab, 0xa831c66d2db43210, 0xb00327c898fb213f, 0xbf597fc7beef0ee4,
    0xc6e00bf33da88fc2, 0xd5a79147930aa725, 0x06ca6351e003826f, 0x142929670a0e6e70,
    0x27b70a8546d22ffc, 0x2e1b21385c26c926, 0x4d2c6dfc5ac42aed, 0x53380d139d95b3df,
    0x650a73548baf63de, 0x766a0abb3c77b2a8, 0x81c2c92e47edaee6, 0x92722c851482353b,
    0xa2bfe8a14cf10364, 0xa81a664bbc423001, 0xc24b8b70d0f89791, 0xc76c51a30654be30,
    0xd192e819d6ef5218, 0xd69906245565a910, 0xf40e35855771202a, 0x106aa07032bbd1b8,
    0x19a4c116b8d2d0c8, 0x1e376c085141ab53, 0x2748774cdf8eeb99, 0x34b0bcb5e19b48a8,
    0x391c0cb3c5c95a63, 0x4ed8aa4ae3418acb, 0x5b9cca4f7763e373, 0x682e6ff3d6b2b8a3,
    0x748f82ee5defb2fc, 0x78a5636f43172f60, 0x84c87814a1f0ab72, 0x8cc702081a6439ec,
    0x90befffa23631e28, 0xa4506cebde82bde9, 0xbef9a3f7b2c67915, 0xc67178f2e372532b,
    0xca273eceea26619c, 0xd186b8c721c0c207, 0xeada7dd6cde0eb1e, 0xf57d4f7fee6ed178,
    0x06f067aa72176fba, 0x0a637dc5a2c898a6, 0x113f9804bef90dae, 0x1b710b35131c471b,
    0x28db77f523047d84, 0x32caab7b40c72493, 0x3c9ebe0a15c9bebc, 0x431d67c49c100d4c,
    0x4cc5d4becb3e42b6, 0x597f299cfc657e2a, 0x5fcb6fab3ad6faec, 0x6c44198c4a475817]

/-- The eight words that a block is mixed into. -/
structure State where
  a : Word
  b : Word
  c : Word
  d : Word
  e : Word
  f : Word
  g : Word
  h : Word

def State.add (s t : State) : State :=
  ⟨s.a+t.a, s.b+t.b, s.c+t.c, s.d+t.d, s.e+t.e, s.f+t.f, s.g+t.g, s.h+t.h⟩

def initial512 : State :=
  ⟨0x6a09e667f3bcc908, 0xbb67ae8584caa73b, 0x3c6ef372fe94f82b, 0xa54ff53a5f1d36f1,
    0x510e527fade682d1, 0x9b05688c2b3e6c1f, 0x1f83d9abfb41bd6b, 0x5be0cd19137e2179⟩

def initial384 : State :=
  ⟨0xcbbb9d5dc1059ed8, 0x629a292a367cd507, 0x9159015a3070dd17, 0x152fecd8f70e5939,
    0x67332667ffc00b31, 0x8eb44a8768581511, 0xdb0c2e0d64f98fa7, 0x47b5481dbefa4fa4⟩

def rotations (x : Word) (i j k : ℕ) : Word :=
  x.rotateRight i ^^^ x.rotateRight j ^^^ x.rotateRight k

/-- One round, for a word of the schedule and its constant. -/
def State.round (s : State) (input : Word × ℕ) : State :=
  let choice := (s.e &&& s.f) ^^^ (~~~s.e &&& s.g)
  let majority := (s.a &&& s.b) ^^^ (s.a &&& s.c) ^^^ (s.b &&& s.c)
  let first := s.h+rotations s.e 14 18 41+choice+BitVec.ofNat 64 input.2+input.1
  let second := rotations s.a 28 34 39+majority
  ⟨first+second, s.a, s.b, s.c, s.d+first, s.e, s.f, s.g⟩

/-- The words of a schedule, the newest of them first. -/
def extendSchedule : ℕ → List Word → List Word
  | 0, words => words
  | rounds+1, words =>
    let low := words.getD 14 0
    let high := words.getD 1 0
    let word := (high.rotateRight 19 ^^^ high.rotateRight 61 ^^^ high >>> 6)+words.getD 6 0
      +(low.rotateRight 1 ^^^ low.rotateRight 8 ^^^ low >>> 7)+words.getD 15 0
    extendSchedule rounds (word :: words)

/-- The schedule of a block. -/
def schedule (block : Bytes) : List Word :=
  let words := (List.range 16).map (fun i => BitVec.ofNat 64 (fromBig (slice block (8*i) (8*i+8))))
  (extendSchedule 64 words.reverse).reverse

def State.mix (s : State) (block : Bytes) : State :=
  s.add (((schedule block).zip constants).foldl State.round s)

/-- The message with its padding and its length in bits. -/
def pad (message : Bytes) : Bytes :=
  message++[0x80]++List.replicate ((239-message.length%128)%128) 0++toBig 16 (8*message.length)

def blocks (padded : Bytes) : List Bytes :=
  (List.range (padded.length/128)).map (fun i => slice padded (128*i) (128*i+128))

def State.words (s : State) : List Word := [s.a, s.b, s.c, s.d, s.e, s.f, s.g, s.h]

/-- The state after a message. -/
def digest (start : State) (message : Bytes) : List Word :=
  ((blocks (pad message)).foldl State.mix start).words

end Sha2

open Sha2

/-- `hashlib.sha512(message).digest()`. -/
def sha512 (message : Bytes) : Bytes :=
  (digest initial512 message).flatMap (fun word => toBig 8 word.toNat)

/-- `hashlib.sha384(message).digest()`. -/
def sha384 (message : Bytes) : Bytes :=
  ((digest initial384 message).take 6).flatMap (fun word => toBig 8 word.toNat)

theorem sha384_length (message : Bytes) : (sha384 message).length = 48 := by
  simp only [sha384, digest, State.words, List.take_succ_cons, List.take_zero, List.flatMap_cons,
    List.flatMap_nil, List.length_append, toBig_length, List.length_nil]

example : sha384 [0x61, 0x62, 0x63] = toBig 48
    0xcb00753f45a35e8bb5a03d699ac65007272c32ab0eded1631a8b605a43ff5bed8086072ba1e7cc2358baeca134c825a7 := by
  decide +kernel

end ConferWorker
