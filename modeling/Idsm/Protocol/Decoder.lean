import Idsm.Protocol.Serializer

/-! A receiver of the wire messages, written from the documented layout. -/

set_option autoImplicit false

namespace Idsm.Protocol

/-- Big-endian bytes as a number. -/
def bigEndian (bytes : List UInt8) : Nat :=
  bytes.foldl (fun value byte => value * 256 + byte.toNat) 0

structure DecodedTimestamp where
  source : TimestampSource
  nanoseconds : Nat
  seconds : Nat
  deriving DecidableEq, Repr

structure DecodedContext where
  version : Nat
  data : List UInt8
  deriving DecidableEq, Repr

structure DecodedMessage where
  protocolVersion : Nat
  header : Nat
  idsmInstanceId : Nat
  sensorInstanceId : Nat
  externalEventId : Nat
  count : Nat
  timestamp : Option DecodedTimestamp
  context : Option DecodedContext
  deriving DecidableEq, Repr

/-- Bit 7 is the source; thirty bits of nanoseconds and thirty-two of seconds follow. -/
def decodeTimestamp : List UInt8 → Option (DecodedTimestamp × List UInt8)
  | first :: second :: third :: fourth :: s0 :: s1 :: s2 :: s3 :: rest =>
      some ({
        source := if first.toNat < 128 then .autosar else .oem
        nanoseconds := bigEndian [first, second, third, fourth] % 2 ^ 30
        seconds := bigEndian [s0, s1, s2, s3] }, rest)
  | _ => none

/-- Seven bits of length, or thirty-one when bit 7 is set. -/
def decodeLength : List UInt8 → Option (Nat × List UInt8)
  | [] => none
  | first :: rest =>
      if first.toNat < 128 then some (first.toNat, rest)
      else
        match rest with
        | second :: third :: fourth :: rest =>
            some (bigEndian [first, second, third, fourth] % 2 ^ 31, rest)
        | _ => none

def decodeContext : List UInt8 → Option (DecodedContext × List UInt8)
  | high :: low :: rest => do
      let (size, rest) ← decodeLength rest
      if size ≤ rest.length then
        some ({ version := bigEndian [high, low], data := rest.take size }, rest.drop size)
      else none
  | _ => none

/-- A frame that is there when its header bit is. -/
def decodeOptional {frame : Type} (included : Bool)
    (decode : List UInt8 → Option (frame × List UInt8)) (bytes : List UInt8) :
    Option (Option frame × List UInt8) :=
  if included then (decode bytes).map fun (frame, rest) => (some frame, rest)
  else some (none, bytes)

/-- The message and the bytes behind it. Signature frames are not specified. -/
def decodeMessage : List UInt8 → Option (DecodedMessage × List UInt8)
  | b0 :: b1 :: b2 :: b3 :: b4 :: b5 :: b6 :: _ :: rest => do
      let header := b0.toNat % 16
      if 4 ≤ header then none
      else
        let (timestamp, rest) ← decodeOptional (header.testBit 1) decodeTimestamp rest
        let (context, rest) ← decodeOptional (header.testBit 0) decodeContext rest
        return ({
          protocolVersion := b0.toNat / 16
          header
          idsmInstanceId := bigEndian [b1, b2] / 2 ^ 6
          sensorInstanceId := b2.toNat % 2 ^ 6
          externalEventId := bigEndian [b3, b4]
          count := bigEndian [b5, b6]
          timestamp
          context }, rest)
  | _ => none

/-- What a call leaves in the caller's buffer. -/
def Cursor.storedIn (cursor : Cursor) (buffer : List UInt8) : List UInt8 :=
  cursor.stores.foldl (fun buffer store => buffer.set store.1.toNat store.2) buffer

end Idsm.Protocol
