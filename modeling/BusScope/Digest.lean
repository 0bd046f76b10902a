/-!
The MD5 message digest. A message is padded to whole blocks of 64 bytes, its length in bits in the
last eight, and each block is mixed into four words of state in 64 steps.
-/

namespace BusScope.Digest

/-- Addend of each step: the integer part of `2 ^ 32 · |sin (i + 1)|`. -/
def addends : List UInt32 :=
  [0xd76aa478, 0xe8c7b756, 0x242070db, 0xc1bdceee, 0xf57c0faf, 0x4787c62a, 0xa8304613, 0xfd469501,
  0x698098d8, 0x8b44f7af, 0xffff5bb1, 0x895cd7be, 0x6b901122, 0xfd987193, 0xa679438e, 0x49b40821,
  0xf61e2562, 0xc040b340, 0x265e5a51, 0xe9b6c7aa, 0xd62f105d, 0x02441453, 0xd8a1e681, 0xe7d3fbc8,
  0x21e1cde6, 0xc33707d6, 0xf4d50d87, 0x455a14ed, 0xa9e3e905, 0xfcefa3f8, 0x676f02d9, 0x8d2a4c8a,
  0xfffa3942, 0x8771f681, 0x6d9d6122, 0xfde5380c, 0xa4beea44, 0x4bdecfa9, 0xf6bb4b60, 0xbebfbc70,
  0x289b7ec6, 0xeaa127fa, 0xd4ef3085, 0x04881d05, 0xd9d4d039, 0xe6db99e5, 0x1fa27cf8, 0xc4ac5665,
  0xf4292244, 0x432aff97, 0xab9423a7, 0xfc93a039, 0x655b59c3, 0x8f0ccc92, 0xffeff47d, 0x85845dd1,
  0x6fa87e4f, 0xfe2ce6e0, 0xa3014314, 0x4e0811a1, 0xf7537e82, 0xbd3af235, 0x2ad7d2bb, 0xeb86d391]

def rotations : List (List UInt32) :=
  [[7, 12, 17, 22], [5, 9, 14, 20], [4, 11, 16, 23], [6, 10, 15, 21]]

structure State where
  a : UInt32
  b : UInt32
  c : UInt32
  d : UInt32

def State.start : State := ⟨0x67452301, 0xefcdab89, 0x98badcfe, 0x10325476⟩

def rotateLeft (x n : UInt32) : UInt32 := (x <<< n) ||| (x >>> (32 - n))

def wordBytes (width n : Nat) : List UInt8 :=
  (List.range width).map fun k => (n >>> (8 * k)).toUInt8

def word (bytes : List UInt8) : UInt32 :=
  (bytes.foldr (fun (b : UInt8) (n : Nat) => n * 256 + b.toNat) 0).toUInt32

def padded (message : List UInt8) : List UInt8 :=
  let size := message.length
  message ++ 0x80 :: List.replicate ((119 - size % 64) % 64) 0 ++ wordBytes 8 (size * 8)

def State.step (block : Array UInt32) (s : State) (i : Nat) (addend : UInt32) : State :=
  let (mix, k) :=
    if i < 16 then ((s.b &&& s.c) ||| (~~~s.b &&& s.d), i)
    else if i < 32 then ((s.d &&& s.b) ||| (~~~s.d &&& s.c), 5 * i + 1)
    else if i < 48 then (s.b ^^^ s.c ^^^ s.d, 3 * i + 5)
    else (s.c ^^^ (s.b ||| ~~~s.d), 7 * i)
  let turn := (rotations.getD (i / 16) []).getD (i % 4) 0
  let sum := mix + s.a + addend + block.getD (k % 16) 0
  ⟨s.d, s.b + rotateLeft sum turn, s.b, s.c⟩

def State.absorb (s : State) (block : List UInt8) : State :=
  let words := (List.range 16).map fun k => word ((block.drop (4 * k)).take 4)
  let t := addends.zipIdx.foldl (fun t e => t.step words.toArray e.2 e.1) s
  ⟨s.a + t.a, s.b + t.b, s.c + t.c, s.d + t.d⟩

def md5 (message : List UInt8) : List UInt8 :=
  let bytes := padded message
  let blocks := (List.range (bytes.length / 64)).map fun k => (bytes.drop (64 * k)).take 64
  let s := blocks.foldl State.absorb State.start
  [s.a, s.b, s.c, s.d].flatMap fun w => wordBytes 4 w.toNat

theorem length_md5 (message : List UInt8) : (md5 message).length = 16 := by
  simp [md5, wordBytes]

end BusScope.Digest
