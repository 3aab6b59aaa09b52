import Idsm.Foundation.Fips180

/-! The SHA-256 of the host probe, `sha256.cpp`: a context that is fed piece by piece. -/

set_option autoImplicit false

namespace Idsm.HostProbe.Sha256

open Idsm.Foundation
open Idsm.Foundation.Fips180 (Words)

def K : List UInt32 :=
  [0x428a2f98, 0x71374491, 0xb5c0fbcf, 0xe9b5dba5,
    0x3956c25b, 0x59f111f1, 0x923f82a4, 0xab1c5ed5,
    0xd807aa98, 0x12835b01, 0x243185be, 0x550c7dc3,
    0x72be5d74, 0x80deb1fe, 0x9bdc06a7, 0xc19bf174,
    0xe49b69c1, 0xefbe4786, 0x0fc19dc6, 0x240ca1cc,
    0x2de92c6f, 0x4a7484aa, 0x5cb0a9dc, 0x76f988da,
    0x983e5152, 0xa831c66d, 0xb00327c8, 0xbf597fc7,
    0xc6e00bf3, 0xd5a79147, 0x06ca6351, 0x14292967,
    0x27b70a85, 0x2e1b2138, 0x4d2c6dfc, 0x53380d13,
    0x650a7354, 0x766a0abb, 0x81c2c92e, 0x92722c85,
    0xa2bfe8a1, 0xa81a664b, 0xc24b8b70, 0xc76c51a3,
    0xd192e819, 0xd6990624, 0xf40e3585, 0x106aa070,
    0x19a4c116, 0x1e376c08, 0x2748774c, 0x34b0bcb5,
    0x391c0cb3, 0x4ed8aa4a, 0x5b9cca4f, 0x682e6ff3,
    0x748f82ee, 0x78a5636f, 0x84c87814, 0x8cc70208,
    0x90befffa, 0xa4506ceb, 0xbef9a3f7, 0xc67178f2]

def rotr (x n : UInt32) : UInt32 := x >>> n ||| x <<< (32 - n)

/-- The block holds `h` and the first `buf_len` bytes of `buf`; `totalLen` counts the message's
bytes. -/
structure Ctx where
  block : BlockBuffer Words 64
  totalLen : UInt64

theorem fresh_fits : ([] : List UInt8).length < 64 := by decide

theorem length_fits : 56 < 64 := by decide

def Ctx.fresh : Ctx where
  block :=
    ⟨⟨0x6a09e667, 0xbb67ae85, 0x3c6ef372, 0xa54ff53a,
      0x510e527f, 0x9b05688c, 0x1f83d9ab, 0x5be0cd19⟩, [], fresh_fits⟩
  totalLen := 0

section Compress

/-- The first sixteen words of the schedule. -/
def loadWord (block : List UInt8) (i : Nat) : UInt32 :=
  (block.getD (4 * i) 0).toUInt32 <<< 24 ||| (block.getD (4 * i + 1) 0).toUInt32 <<< 16 |||
    (block.getD (4 * i + 2) 0).toUInt32 <<< 8 ||| (block.getD (4 * i + 3) 0).toUInt32

/-- The word behind those that are there. -/
def nextWord (w : List UInt32) : UInt32 :=
  let before := fun back => w.getD (w.length - back) 0
  let s0 := rotr (before 15) 7 ^^^ rotr (before 15) 18 ^^^ before 15 >>> 3
  let s1 := rotr (before 2) 17 ^^^ rotr (before 2) 19 ^^^ before 2 >>> 10
  before 16 + s0 + before 7 + s1

def expand : (more : Nat) → List UInt32 → List UInt32
  | 0, w => w
  | more + 1, w => expand more (w ++ [nextWord w])

def mix (w : List UInt32) (r : Words) (i : Nat) : Words :=
  let s1 := rotr r.e 6 ^^^ rotr r.e 11 ^^^ rotr r.e 25
  let ch := (r.e &&& r.f) ^^^ (~~~r.e &&& r.g)
  let t1 := r.h + s1 + ch + K.getD i 0 + w.getD i 0
  let s0 := rotr r.a 2 ^^^ rotr r.a 13 ^^^ rotr r.a 22
  let mj := (r.a &&& r.b) ^^^ (r.a &&& r.c) ^^^ (r.b &&& r.c)
  let t2 := s0 + mj
  ⟨t1 + t2, r.a, r.b, r.c, r.d + t1, r.e, r.f, r.g⟩

def compress (h : Words) (block : List UInt8) : Words :=
  let w := expand 48 ((List.range 16).map (loadWord block))
  let r := (List.range 64).foldl (mix w) h
  ⟨h.a + r.a, h.b + r.b, h.c + r.c, h.d + r.d, h.e + r.e, h.f + r.f, h.g + r.g, h.h + r.h⟩

end Compress

section Context

def ctxUpdate (c : Ctx) (data : List UInt8) : Ctx where
  block := c.block.feed compress data
  totalLen := c.totalLen + UInt64.ofNat data.length

def lenBe (bitLen : UInt64) : List UInt8 :=
  (List.range 8).map fun i => (bitLen >>> UInt64.ofNat (56 - 8 * i)).toUInt8

def outWord (h : UInt32) : List UInt8 :=
  [(h >>> 24).toUInt8, (h >>> 16).toUInt8, (h >>> 8).toUInt8, h.toUInt8]

/-- The length is read first; the padding counts on, but nothing reads that. -/
def ctxFinal (c : Ctx) : List UInt8 :=
  let bitLen := c.totalLen * 8
  let marked := c.block.feed compress [0x80]
  let padded := marked.padZeros compress 56 length_fits
  let h := (padded.feed compress (lenBe bitLen)).state
  [h.a, h.b, h.c, h.d, h.e, h.f, h.g, h.h].flatMap outWord

end Context

def sha256 (data : List UInt8) : List UInt8 := ctxFinal (ctxUpdate .fresh data)

/-- What reading a file gives: the bytes of each read, and whether the stream is bad in the end. -/
structure FileReads where
  reads : List (List UInt8)
  bad : Bool

/-- `none` is a file that does not open; a read of nothing is not fed. -/
def sha256File (file : Option FileReads) : Option (List UInt8) :=
  match file with
  | none => none
  | some file =>
      let c := file.reads.foldl (fun c read => if read = [] then c else ctxUpdate c read) Ctx.fresh
      if file.bad then none else some (ctxFinal c)

end Idsm.HostProbe.Sha256
