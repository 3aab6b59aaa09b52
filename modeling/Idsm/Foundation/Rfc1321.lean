import Idsm.Foundation.BlockHash

/-! MD5 as RFC 1321 has it, for messages of whole bytes: sixteen operations a round, each of
which changes one of the four registers. -/

set_option autoImplicit false

namespace Idsm.Foundation.Rfc1321

structure Registers where
  a : UInt32
  b : UInt32
  c : UInt32
  d : UInt32
  deriving DecidableEq

def initial : Registers := ⟨0x67452301, 0xefcdab89, 0x98badcfe, 0x10325476⟩

section Functions

variable (x y z : UInt32)

def f : UInt32 := x &&& y ||| ~~~x &&& z

def g : UInt32 := x &&& z ||| y &&& ~~~z

def h : UInt32 := x ^^^ y ^^^ z

def i : UInt32 := y ^^^ (x ||| ~~~z)

def rotateLeft (s : UInt32) : UInt32 := x <<< s ||| x >>> (32 - s)

end Functions

/-- One operation: the word it reads, its shift and its sine. -/
structure Operation where
  k : Nat
  s : UInt32
  t : UInt32
  deriving DecidableEq

section Rounds

def round1 : List Operation :=
  [⟨0, 7, 0xd76aa478⟩, ⟨1, 12, 0xe8c7b756⟩, ⟨2, 17, 0x242070db⟩, ⟨3, 22, 0xc1bdceee⟩,
    ⟨4, 7, 0xf57c0faf⟩, ⟨5, 12, 0x4787c62a⟩, ⟨6, 17, 0xa8304613⟩, ⟨7, 22, 0xfd469501⟩,
    ⟨8, 7, 0x698098d8⟩, ⟨9, 12, 0x8b44f7af⟩, ⟨10, 17, 0xffff5bb1⟩, ⟨11, 22, 0x895cd7be⟩,
    ⟨12, 7, 0x6b901122⟩, ⟨13, 12, 0xfd987193⟩, ⟨14, 17, 0xa679438e⟩, ⟨15, 22, 0x49b40821⟩]

def round2 : List Operation :=
  [⟨1, 5, 0xf61e2562⟩, ⟨6, 9, 0xc040b340⟩, ⟨11, 14, 0x265e5a51⟩, ⟨0, 20, 0xe9b6c7aa⟩,
    ⟨5, 5, 0xd62f105d⟩, ⟨10, 9, 0x02441453⟩, ⟨15, 14, 0xd8a1e681⟩, ⟨4, 20, 0xe7d3fbc8⟩,
    ⟨9, 5, 0x21e1cde6⟩, ⟨14, 9, 0xc33707d6⟩, ⟨3, 14, 0xf4d50d87⟩, ⟨8, 20, 0x455a14ed⟩,
    ⟨13, 5, 0xa9e3e905⟩, ⟨2, 9, 0xfcefa3f8⟩, ⟨7, 14, 0x676f02d9⟩, ⟨12, 20, 0x8d2a4c8a⟩]

def round3 : List Operation :=
  [⟨5, 4, 0xfffa3942⟩, ⟨8, 11, 0x8771f681⟩, ⟨11, 16, 0x6d9d6122⟩, ⟨14, 23, 0xfde5380c⟩,
    ⟨1, 4, 0xa4beea44⟩, ⟨4, 11, 0x4bdecfa9⟩, ⟨7, 16, 0xf6bb4b60⟩, ⟨10, 23, 0xbebfbc70⟩,
    ⟨13, 4, 0x289b7ec6⟩, ⟨0, 11, 0xeaa127fa⟩, ⟨3, 16, 0xd4ef3085⟩, ⟨6, 23, 0x04881d05⟩,
    ⟨9, 4, 0xd9d4d039⟩, ⟨12, 11, 0xe6db99e5⟩, ⟨15, 16, 0x1fa27cf8⟩, ⟨2, 23, 0xc4ac5665⟩]

def round4 : List Operation :=
  [⟨0, 6, 0xf4292244⟩, ⟨7, 10, 0x432aff97⟩, ⟨14, 15, 0xab9423a7⟩, ⟨5, 21, 0xfc93a039⟩,
    ⟨12, 6, 0x655b59c3⟩, ⟨3, 10, 0x8f0ccc92⟩, ⟨10, 15, 0xffeff47d⟩, ⟨1, 21, 0x85845dd1⟩,
    ⟨8, 6, 0x6fa87e4f⟩, ⟨15, 10, 0xfe2ce6e0⟩, ⟨6, 15, 0xa3014314⟩, ⟨13, 21, 0x4e0811a1⟩,
    ⟨4, 6, 0xf7537e82⟩, ⟨11, 10, 0xbd3af235⟩, ⟨2, 15, 0x2ad7d2bb⟩, ⟨9, 21, 0xeb86d391⟩]

end Rounds

section Computation

/-- Word `k` of a block, the low byte first. -/
def word (block : List UInt8) (k : Nat) : UInt32 :=
  (block.getD (4 * k) 0).toUInt32 ||| (block.getD (4 * k + 1) 0).toUInt32 <<< 8 |||
    (block.getD (4 * k + 2) 0).toUInt32 <<< 16 ||| (block.getD (4 * k + 3) 0).toUInt32 <<< 24

/-- `a = b + ((a + F(b, c, d) + X[k] + T[i]) <<< s)` for the registers in these places. -/
def operate (mixed : UInt32 → UInt32 → UInt32 → UInt32) (block : List UInt8) (op : Operation)
    (a b c d : UInt32) : UInt32 :=
  b + rotateLeft (a + mixed b c d + word block op.k + op.t) op.s

/-- Four operations, on the registers as `[ABCD]`, `[DABC]`, `[CDAB]` and `[BCDA]`. -/
def round (mixed : UInt32 → UInt32 → UInt32 → UInt32) (block : List UInt8) :
    List Operation → Registers → Registers
  | first :: second :: third :: fourth :: rest, r =>
      let r := { r with a := operate mixed block first r.a r.b r.c r.d }
      let r := { r with d := operate mixed block second r.d r.a r.b r.c }
      let r := { r with c := operate mixed block third r.c r.d r.a r.b }
      let r := { r with b := operate mixed block fourth r.b r.c r.d r.a }
      round mixed block rest r
  | _, r => r

/-- The registers behind a block. -/
def compress (r : Registers) (block : List UInt8) : Registers :=
  let mixed := round i block round4 (round h block round3 (round g block round2
    (round f block round1 r)))
  ⟨mixed.a + r.a, mixed.b + r.b, mixed.c + r.c, mixed.d + r.d⟩

/-- The low 64 bits of a number, the low byte first. -/
def lengthBytes (number : Nat) : List UInt8 :=
  (List.range 8).map fun index => UInt8.ofNat (number / 2 ^ (8 * index))

/-- A one, the fewest zeros that leave room for the length, and the length in bits. -/
def pad (message : List UInt8) : List UInt8 :=
  message ++ [0x80] ++ List.replicate (paddingZeros message.length) 0 ++
    lengthBytes (8 * message.length)

def wordBytes (value : UInt32) : List UInt8 :=
  [value.toUInt8, (value >>> 8).toUInt8, (value >>> 16).toUInt8, (value >>> 24).toUInt8]

def md5 (message : List UInt8) : List UInt8 :=
  let r := (blocks 64 (pad message)).foldl compress initial
  [r.a, r.b, r.c, r.d].flatMap wordBytes

end Computation

end Idsm.Foundation.Rfc1321
