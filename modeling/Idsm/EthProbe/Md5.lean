import Idsm.EthProbe.Tls
import Idsm.Foundation.Rfc1321
import Idsm.Foundation.Text

/-! The MD5 of the Ethernet probe, `md5.cpp`, and the texts that it hashes for JA3. -/

set_option autoImplicit false

namespace Idsm.EthProbe

open Idsm.Foundation
open Idsm.Foundation.Rfc1321 (Registers)

/-- The block holds `state_` and the first `buf_len_` bytes of `buf_`. -/
structure Md5 where
  block : BlockBuffer Registers 64
  bits : UInt64

namespace Md5

def rotl (x n : UInt32) : UInt32 := x <<< n ||| x >>> (32 - n)

/-- The shifts of the rounds. -/
def S : List UInt32 :=
  [7, 12, 17, 22, 7, 12, 17, 22, 7, 12, 17, 22, 7, 12, 17, 22,
    5, 9, 14, 20, 5, 9, 14, 20, 5, 9, 14, 20, 5, 9, 14, 20,
    4, 11, 16, 23, 4, 11, 16, 23, 4, 11, 16, 23, 4, 11, 16, 23,
    6, 10, 15, 21, 6, 10, 15, 21, 6, 10, 15, 21, 6, 10, 15, 21]

def K : List UInt32 :=
  [0xd76aa478, 0xe8c7b756, 0x242070db, 0xc1bdceee,
    0xf57c0faf, 0x4787c62a, 0xa8304613, 0xfd469501,
    0x698098d8, 0x8b44f7af, 0xffff5bb1, 0x895cd7be,
    0x6b901122, 0xfd987193, 0xa679438e, 0x49b40821,
    0xf61e2562, 0xc040b340, 0x265e5a51, 0xe9b6c7aa,
    0xd62f105d, 0x02441453, 0xd8a1e681, 0xe7d3fbc8,
    0x21e1cde6, 0xc33707d6, 0xf4d50d87, 0x455a14ed,
    0xa9e3e905, 0xfcefa3f8, 0x676f02d9, 0x8d2a4c8a,
    0xfffa3942, 0x8771f681, 0x6d9d6122, 0xfde5380c,
    0xa4beea44, 0x4bdecfa9, 0xf6bb4b60, 0xbebfbc70,
    0x289b7ec6, 0xeaa127fa, 0xd4ef3085, 0x04881d05,
    0xd9d4d039, 0xe6db99e5, 0x1fa27cf8, 0xc4ac5665,
    0xf4292244, 0x432aff97, 0xab9423a7, 0xfc93a039,
    0x655b59c3, 0x8f0ccc92, 0xffeff47d, 0x85845dd1,
    0x6fa87e4f, 0xfe2ce6e0, 0xa3014314, 0x4e0811a1,
    0xf7537e82, 0xbd3af235, 0x2ad7d2bb, 0xeb86d391]

section Transform

def loadWord (block : List UInt8) (i : Nat) : UInt32 :=
  (block.getD (i * 4) 0).toUInt32 ||| (block.getD (i * 4 + 1) 0).toUInt32 <<< 8 |||
    (block.getD (i * 4 + 2) 0).toUInt32 <<< 16 ||| (block.getD (i * 4 + 3) 0).toUInt32 <<< 24

/-- The function and the word of step `i`. -/
def selected (st : Registers) (i : Nat) : UInt32 × Nat :=
  if i < 16 then (st.b &&& st.c ||| ~~~st.b &&& st.d, i)
  else if i < 32 then (st.d &&& st.b ||| ~~~st.d &&& st.c, (5 * i + 1) % 16)
  else if i < 48 then (st.b ^^^ st.c ^^^ st.d, (3 * i + 5) % 16)
  else (st.c ^^^ (st.b ||| ~~~st.d), 7 * i % 16)

/-- One step, which moves every register on by one place. -/
def mix (m : List UInt32) (st : Registers) (i : Nat) : Registers :=
  let (f, g) := selected st i
  ⟨st.d, st.b + rotl (st.a + f + K.getD i 0 + m.getD g 0) (S.getD i 0), st.b, st.c⟩

def transform (st : Registers) (block : List UInt8) : Registers :=
  let r := (List.range 64).foldl (mix ((List.range 16).map (loadWord block))) st
  ⟨st.a + r.a, st.b + r.b, st.c + r.c, st.d + r.d⟩

end Transform

def fresh : Md5 where
  block := ⟨⟨0x67452301, 0xefcdab89, 0x98badcfe, 0x10325476⟩, [], by decide⟩
  bits := 0

def update (md : Md5) (data : List UInt8) : Md5 where
  block := md.block.feed transform data
  bits := md.bits + UInt64.ofNat data.length * 8

def lenLe (totalBits : UInt64) : List UInt8 :=
  (List.range 8).map fun i => (totalBits >>> UInt64.ofNat (8 * i)).toUInt8

def outWord (st : UInt32) : List UInt8 :=
  [st.toUInt8, (st >>> 8).toUInt8, (st >>> 16).toUInt8, (st >>> 24).toUInt8]

/-- The length is read first and goes into the block directly. -/
def final (md : Md5) : List UInt8 :=
  let totalBits := md.bits
  let marked := md.block.feed transform [0x80]
  let padded := marked.padZeros transform 56 (by decide)
  let st := transform padded.state (padded.bytes ++ lenLe totalBits)
  [st.a, st.b, st.c, st.d].flatMap outWord

def hexDigits : List Char := "0123456789abcdef".toList

def finalHex (md : Md5) : String :=
  String.ofList (md.final.flatMap fun (b : UInt8) =>
    [hexDigits.getD (b >>> 4).toNat '0', hexDigits.getD (b &&& 0xF).toNat '0'])

/-- `update` with the bytes of a text, and `final_hex`. -/
def ofText (text : String) : String := (fresh.update (utf8 text)).finalHex

end Md5

end Idsm.EthProbe
