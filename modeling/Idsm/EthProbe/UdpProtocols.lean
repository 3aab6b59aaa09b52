import Idsm.EthProbe.Packet

/-! The application protocols over UDP: `proto_dns.cpp` and `proto_someip.cpp` with its service
discovery. -/

set_option autoImplicit false

namespace Idsm.EthProbe

section Dns

def dnsPort : UInt16 := 53

inductive DnsError where
  | ok
  | truncated
  | malformed
  | qname
  deriving DecidableEq, Repr

def DnsError.code : DnsError → UInt32
  | .ok => 0
  | .truncated => 1
  | .malformed => 2
  | .qname => 3

structure DnsInfo where
  valid : Bool
  txid : UInt16
  isResponse : Bool
  rcode : UInt8
  qdcount : UInt16
  ancount : UInt16
  qname : List UInt8
  qtype : UInt16
  qclass : UInt16
  error : DnsError
  deriving DecidableEq, Repr

def dnsAlertQnameIllegal : UInt32 := 0xB001
def dnsAlertSuspiciousQtype : UInt32 := 0xB002

def labelCharOk (c : UInt8) : Bool :=
  decide (97 ≤ c ∧ c ≤ 122) || decide (65 ≤ c ∧ c ≤ 90) || decide (48 ≤ c ∧ c ≤ 57) ||
    c == 45 || c == 95

def dnsMaxHops : Nat := 32

/-- The labels and pointers of a name, to the name with a dot behind each label and the offset
past it; `qend` is zero until a pointer is followed. -/
def walkName (data : List UInt8) : (hops : Nat) → (off totalNameLen qend : Nat) →
    (name : List UInt8) → Except DnsError (List UInt8 × Nat)
  | 0, _, _, _, _ => .error .malformed
  | hops + 1, off, totalNameLen, qend, name =>
      if data.length ≤ off then .error .malformed
      else
        let l := byteAt data off
        if l &&& 0xC0 = 0xC0 then
          if data.length ≤ off + 1 then .error .malformed
          else
            let ptr := (l &&& 0x3F).toNat * 256 + (byteAt data (off + 1)).toNat
            if data.length ≤ ptr then .error .malformed
            else walkName data hops ptr totalNameLen (if qend = 0 then off + 2 else qend) name
        else if l = 0 then .ok (name, if qend = 0 then off + 1 else qend)
        else if 63 < l ∨ data.length < off + 1 + l.toNat then .error .malformed
        else if 255 < totalNameLen + (l.toNat + 1) then .error .qname
        else
          let label := slice data (off + 1) l.toNat
          if label.all labelCharOk then
            walkName data hops (off + 1 + l.toNat) (totalNameLen + (l.toNat + 1)) qend
              (name ++ label ++ [46])
          else .error .qname

/-- Without the last dot. -/
def trimDot (name : List UInt8) : List UInt8 :=
  if name.getLast? = some 46 then name.dropLast else name

def DnsInfo.header (data : List UInt8) : DnsInfo where
  valid := false
  txid := rd16 data 0
  isResponse := rd16 data 2 &&& 0x8000 != 0
  rcode := (rd16 data 2 &&& 0xF).toUInt8
  qdcount := rd16 data 4
  ancount := rd16 data 6
  qname := []
  qtype := 0
  qclass := 0
  error := .ok

def parseDns (data : List UInt8) : DnsInfo :=
  if data.length < 12 then ⟨false, 0, false, 0, 0, 0, [], 0, 0, .truncated⟩
  else
    let i := DnsInfo.header data
    if i.qdcount = 0 then { i with valid := true }
    else
      match walkName data dnsMaxHops 12 0 0 [] with
      | .error error => { i with error }
      | .ok (name, qend) =>
          let i := { i with qname := trimDot name }
          if data.length < qend + 4 then { i with error := .truncated }
          else { i with qtype := rd16 data qend, qclass := rd16 data (qend + 2), valid := true }

def dnsQtypeSuspicious (qtype : UInt16) : Bool :=
  qtype == 10 || qtype == 251 || qtype == 252 || qtype == 255

end Dns

section Someip

def someipSdService : UInt16 := 0xFFFF

inductive SomeipError where
  | ok
  | truncated
  | length
  | protoVer
  | msgType
  deriving DecidableEq, Repr

def SomeipError.code : SomeipError → UInt32
  | .ok => 0
  | .truncated => 1
  | .length => 2
  | .protoVer => 3
  | .msgType => 4

/-- The payload reaches to the end of the datagram. -/
structure SomeipInfo where
  valid : Bool
  serviceId : UInt16
  methodId : UInt16
  clientId : UInt16
  sessionId : UInt16
  ifaceVer : UInt8
  msgType : UInt8
  returnCode : UInt8
  payload : List UInt8
  error : SomeipError
  deriving DecidableEq, Repr

def SomeipInfo.isSd (info : SomeipInfo) : Bool := info.serviceId == someipSdService

def knownMsgType (t : UInt8) : Bool :=
  t == 0x00 || t == 0x01 || t == 0x02 || t == 0x80 || t == 0x81

def parseSomeip (data : List UInt8) : SomeipInfo :=
  if data.length < 16 then ⟨false, 0, 0, 0, 0, 0, 0, 0, [], .truncated⟩
  else
    let i : SomeipInfo :=
      { valid := false
        serviceId := rd16 data 0
        methodId := rd16 data 2
        clientId := rd16 data 8
        sessionId := rd16 data 10
        ifaceVer := byteAt data 13
        msgType := byteAt data 14
        returnCode := byteAt data 15
        payload := data.drop 16
        error := .ok }
    let length := (rd32 data 4).toNat
    if length < 8 ∨ i.payload.length < length - 8 then { i with error := .length }
    else if byteAt data 12 ≠ 1 then { i with error := .protoVer }
    else if knownMsgType i.msgType = false then { i with error := .msgType }
    else { i with valid := true }

structure SdEntry where
  type : UInt8
  serviceId : UInt16
  instanceId : UInt16
  ttl : UInt32
  deriving DecidableEq, Repr

def sdEntryOffer : UInt8 := 0x01

def sdEntryAt (e : List UInt8) (off : Nat) : SdEntry where
  type := byteAt e off
  serviceId := rd16 e (off + 4)
  instanceId := rd16 e (off + 6)
  ttl := (byteAt e (off + 9)).toUInt32 <<< 16 ||| (byteAt e (off + 10)).toUInt32 <<< 8 |||
    (byteAt e (off + 11)).toUInt32

/-- `none` when the lengths do not fit. -/
def parseSdEntries (p : List UInt8) : Option (List SdEntry) :=
  if p.length < 8 then none
  else
    let entriesLen := (rd32 p 4).toNat
    if p.length - 8 < entriesLen ∨ entriesLen % 16 ≠ 0 then none
    else some ((List.range (entriesLen / 16)).map fun index => sdEntryAt (p.drop 8) (16 * index))

/-- The last session of each node, by its address. -/
abbrev SdSessions := List (List UInt8 × UInt16)

/-- The services that may be offered; an empty list allows all. -/
abbrev ServiceWhitelist := List UInt16

/-- A session number that goes back; the wrap at the end is none. -/
def sessionDrops (prev sessionId : UInt16) : Bool :=
  decide (sessionId < prev) && !(decide (0xFF00 < prev) && decide (sessionId < 0x0100))

def inspectSession (sessions : SdSessions) (srcIp : List UInt8) (sessionId : UInt16) :
    SdSessions × List UInt32 :=
  ((srcIp, sessionId) :: sessions.filter fun entry => entry.1 ≠ srcIp,
    match sessions.lookup srcIp with
    | none => []
    | some prev => if sessionDrops prev sessionId then [0x2000] else [])

/-- Offers of services that are not allowed. -/
def offerAlerts (whitelist : ServiceWhitelist) (entries : List SdEntry) : List UInt32 :=
  (entries.filter fun e => e.type == sdEntryOffer && decide (0 < e.ttl) &&
    !whitelist.isEmpty && !whitelist.contains e.serviceId).map
      fun e => 0x1000 + e.serviceId.toUInt32

def inspectSd (whitelist : ServiceWhitelist) (sessions : SdSessions) (info : SomeipInfo)
    (srcIp : List UInt8) : SdSessions × List UInt32 :=
  if info.valid = false ∨ info.isSd = false then (sessions, [])
  else
    let (sessions, alerts) := inspectSession sessions srcIp info.sessionId
    (sessions, alerts ++ offerAlerts whitelist ((parseSdEntries info.payload).getD []))

end Someip

end Idsm.EthProbe
