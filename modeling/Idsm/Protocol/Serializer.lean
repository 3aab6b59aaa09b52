import Mathlib

/-! The wire serializer of qualified security events, `IdsM_Protocol.c`. Sizes
and offsets are the source's own `uint16` values, so they wrap as they do there. -/

set_option autoImplicit false

namespace Idsm.Protocol

def protocolVersion : UInt8 := 2

def eventFrameSize : UInt16 := 8

def timestampSize : UInt16 := 8

/-- Context sizes up to this one use the one-byte length field. -/
def contextShortMax : UInt16 := 127

def headerContextData : UInt8 := 0x01

def headerTimestamp : UInt8 := 0x02

inductive TimestampSource where
  | autosar
  | oem
  deriving DecidableEq, Repr

structure TimestampData where
  seconds : UInt32
  nanoseconds : UInt32
  source : TimestampSource
  deriving DecidableEq, Repr

inductive EventSeverity where
  | low
  | medium
  | high
  | critical
  deriving DecidableEq, Repr

/-- `IdsM_QualifiedSecurityEventType`. The context pointer is `none` for `NULL`;
otherwise it designates exactly the `context_data_size` bytes that may be read. -/
structure QualifiedSecurityEvent where
  idsmInstanceId : UInt16
  externalEventId : UInt16
  sensorInstanceId : UInt8
  severity : EventSeverity
  count : UInt16
  hasTimestamp : Bool
  timestamp : TimestampData
  contextDataVersion : UInt16
  contextData : Option (List UInt8)
  contextDataSize : UInt16
  readable : ∀ bytes, contextData = some bytes → bytes.length = contextDataSize.toNat

def contextLengthFieldSize (contextSize : UInt16) : UInt16 :=
  if contextSize ≤ contextShortMax then 1 else 4

/-- The bytes of the context data frame's blob: empty without a context. -/
def QualifiedSecurityEvent.context (qsev : QualifiedSecurityEvent) : List UInt8 :=
  qsev.contextData.getD []

def QualifiedSecurityEvent.hasContext (qsev : QualifiedSecurityEvent) : Bool :=
  qsev.contextData.isSome && decide (0 < qsev.contextDataSize)

/-- `IdsM_Protocol_GetMessageSize`; every sum is truncated to `uint16`. -/
def getMessageSize : Option QualifiedSecurityEvent → UInt16
  | none => 0
  | some qsev =>
      let size := eventFrameSize
      let size := if qsev.hasTimestamp then size + timestampSize else size
      if qsev.hasContext then
        size + 2 + contextLengthFieldSize qsev.contextDataSize + qsev.contextDataSize
      else size

/-- The stores made so far, as index and byte, and the next `uint16` offset. -/
structure Cursor where
  offset : UInt16
  stores : List (UInt16 × UInt8)
  deriving DecidableEq, Repr

/-- `buffer[offset++] = byte` -/
def Cursor.put (cursor : Cursor) (byte : UInt8) : Cursor :=
  ⟨cursor.offset + 1, cursor.stores ++ [(cursor.offset, byte)]⟩

def Cursor.putAll (cursor : Cursor) (bytes : List UInt8) : Cursor :=
  bytes.foldl Cursor.put cursor

def header (qsev : QualifiedSecurityEvent) : UInt8 :=
  (if qsev.hasContext then headerContextData else 0) |||
    (if qsev.hasTimestamp then headerTimestamp else 0)

def eventFrame (qsev : QualifiedSecurityEvent) : List UInt8 :=
  [(protocolVersion <<< 4) ||| header qsev,
   (qsev.idsmInstanceId >>> 2).toUInt8,
   (((qsev.idsmInstanceId &&& 0x03) <<< 6) |||
     (qsev.sensorInstanceId &&& 0x3F).toUInt16).toUInt8,
   (qsev.externalEventId >>> 8).toUInt8,
   (qsev.externalEventId &&& 0xFF).toUInt8,
   (qsev.count >>> 8).toUInt8,
   (qsev.count &&& 0xFF).toUInt8,
   0]

def timestampFrame (timestamp : TimestampData) : List UInt8 :=
  let ns30 := timestamp.nanoseconds &&& 0x3FFFFFFF
  let source : UInt32 := if timestamp.source = .oem then 0x80 else 0x00
  [(source ||| ((ns30 >>> 24) &&& 0x3F)).toUInt8,
   ((ns30 >>> 16) &&& 0xFF).toUInt8,
   ((ns30 >>> 8) &&& 0xFF).toUInt8,
   (ns30 &&& 0xFF).toUInt8,
   (timestamp.seconds >>> 24).toUInt8,
   ((timestamp.seconds >>> 16) &&& 0xFF).toUInt8,
   ((timestamp.seconds >>> 8) &&& 0xFF).toUInt8,
   (timestamp.seconds &&& 0xFF).toUInt8]

def contextLengthField (contextSize : UInt16) : List UInt8 :=
  if contextSize ≤ contextShortMax then [contextSize.toUInt8]
  else
    let len := contextSize.toUInt32
    [((0x80 : UInt32) ||| ((len >>> 24) &&& 0x7F)).toUInt8,
     ((len >>> 16) &&& 0xFF).toUInt8,
     ((len >>> 8) &&& 0xFF).toUInt8,
     (len &&& 0xFF).toUInt8]

def contextFrame (qsev : QualifiedSecurityEvent) : List UInt8 :=
  [(qsev.contextDataVersion >>> 8).toUInt8, (qsev.contextDataVersion &&& 0xFF).toUInt8] ++
    contextLengthField qsev.contextDataSize ++ qsev.context

/-- `IdsM_Protocol_SerializeQSEv`: the returned length and the stores made into
the caller's buffer. `bufferPresent` is false for a `NULL` buffer. -/
def serializeQSEv (qsev : Option QualifiedSecurityEvent) (bufferPresent : Bool)
    (bufferSize : UInt16) : Cursor :=
  match qsev with
  | none => ⟨0, []⟩
  | some event =>
      if bufferPresent = false then ⟨0, []⟩
      else
        let required := getMessageSize (some event)
        if required = 0 ∨ bufferSize < required then ⟨0, []⟩
        else
          let cursor := Cursor.putAll ⟨0, []⟩ (eventFrame event)
          let cursor :=
            if event.hasTimestamp then cursor.putAll (timestampFrame event.timestamp) else cursor
          if event.hasContext then cursor.putAll (contextFrame event) else cursor

/-- The wire message `buildJsonPayload` renders: the vector it sizes with
`getMessageSize`, and the stores the serializer makes into it. -/
structure WireMessage where
  capacity : UInt16
  written : Cursor

def buildWireMessage (qsev : QualifiedSecurityEvent) : WireMessage :=
  let capacity := getMessageSize (some qsev)
  if capacity = 0 then ⟨capacity, ⟨0, []⟩⟩
  else ⟨capacity, serializeQSEv (some qsev) true capacity⟩

end Idsm.Protocol
