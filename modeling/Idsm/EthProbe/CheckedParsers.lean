import Idsm.EthProbe.CheckedPacket
import Idsm.EthProbe.Tls
import Idsm.EthProbe.UdpProtocols
import Idsm.Foundation.CText

/-! The application parsers with their reads: `proto_doip.cpp`, `proto_dns.cpp`,
`proto_someip.cpp`, `proto_tls.cpp` and `proto_http.cpp`. A loop has so many passes as its counter
can count, or as there are bytes. -/

set_option autoImplicit false

namespace Idsm.EthProbe

open Idsm.Foundation

/-- A message with the pointer to its payload. -/
structure DoipView where
  valid : Bool
  version : UInt8
  payloadType : UInt16
  payloadLen : UInt32
  payload : View
  error : DoipError
  deriving DecidableEq, Repr

def DoipView.info (i : DoipView) : DoipInfo := ⟨i.payloadType, i.error⟩

structure SomeipView where
  fields : SomeipInfo
  payload : View
  deriving DecidableEq, Repr

def SomeipView.info (data : List UInt8) (i : SomeipView) : SomeipInfo :=
  { i.fields with payload := i.payload.bytes data }

/-- `headerBlock` is none for the null pointer. -/
structure HttpView where
  isRequest : Bool
  isResponse : Bool
  method : List UInt8
  uri : List UInt8
  status : UInt16
  version : List UInt8
  headerBlock : Option View
  consumed : Nat
  error : HttpError
  deriving DecidableEq, Repr

def HttpView.empty : HttpView := ⟨false, false, [], [], 0, [], none, 0, .ok⟩

/-- What the pipeline reads of it. -/
def HttpView.message (data : List UInt8) (m : HttpView) : HttpMessage :=
  if m.error = .ok then
    ⟨m.isRequest, m.method, m.uri, m.headerBlock.map (View.bytes data), m.consumed, .ok⟩
  else .failed m.consumed m.error

namespace Checked

variable (data : List UInt8)

section Doip

def parseDoip : Checked DoipView :=
  if data.length < 8 then return ⟨false, 0, 0, 0, .null, .truncated⟩
  else do
    let p := View.whole data
    let version ← p.read data 0
    let payloadType ← rd16 data p 2
    let payloadLen ← rd32 data p 4
    let avail ← checkedSub data.length 8
    let inverse ← p.read data 1
    let i : DoipView := ⟨false, version, payloadType, payloadLen, ⟨8, avail⟩, .ok⟩
    if version ≠ ~~~inverse then return { i with error := .versionInverse }
    else if version ≠ 2 ∧ version ≠ 3 then return { i with error := .unknownVersion }
    else if avail < payloadLen.toNat then return { i with error := .length }
    else if knownPayloadType payloadType = false then return { i with error := .unknownType }
    else return { i with valid := true }

end Doip

section Dns

/-- The bytes of a label, one for each pass of the loop. -/
def readLabel (start : Nat) (l : UInt8) : (passes : Nat) → (j : UInt8) → (label : List UInt8) →
    Checked (List UInt8)
  | 0, _, _ => .error .unfinished
  | passes + 1, j, label =>
      if j < l then do
        let c ← (View.whole data).read data (start + j.toNat)
        readLabel start l passes (j + 1) (label ++ [c])
      else return label

/-- The loop over the labels and pointers of a name, with its own count of the passes. -/
def walkName : (passes : Nat) → (hops off totalNameLen qend : Nat) → (name : List UInt8) →
    Checked (Except DnsError (List UInt8 × Nat))
  | 0, _, _, _, _, _ => .error .unfinished
  | passes + 1, hops, off, totalNameLen, qend, name =>
      if dnsMaxHops < hops + 1 ∨ data.length ≤ off then return .error .malformed
      else do
        let l ← (View.whole data).read data off
        if l &&& 0xC0 = 0xC0 then
          if data.length ≤ off + 1 then return .error .malformed
          else do
            let low ← (View.whole data).read data (off + 1)
            let ptr := (l &&& 0x3F).toNat * 256 + low.toNat
            if data.length ≤ ptr then return .error .malformed
            else
              walkName passes (hops + 1) ptr totalNameLen (if qend = 0 then off + 2 else qend) name
        else if l = 0 then return .ok (name, if qend = 0 then off + 1 else qend)
        else if 63 < l ∨ data.length < off + 1 + l.toNat then return .error .malformed
        else if 255 < totalNameLen + (l.toNat + 1) then return .error .qname
        else do
          let label ← readLabel data (off + 1) l (2 ^ 8) 0 []
          if label.all labelCharOk then
            walkName passes (hops + 1) (off + 1 + l.toNat) (totalNameLen + (l.toNat + 1)) qend
              (name ++ label ++ [46])
          else return .error .qname

def parseDns : Checked DnsInfo :=
  if data.length < 12 then return ⟨false, 0, false, 0, 0, 0, [], 0, 0, .truncated⟩
  else do
    let p := View.whole data
    let txid ← rd16 data p 0
    let flags ← rd16 data p 2
    let qdcount ← rd16 data p 4
    let ancount ← rd16 data p 6
    let i : DnsInfo :=
      { valid := false
        txid
        isResponse := flags &&& 0x8000 != 0
        rcode := (flags &&& 0xF).toUInt8
        qdcount
        ancount
        qname := []
        qtype := 0
        qclass := 0
        error := .ok }
    if qdcount = 0 then return { i with valid := true }
    else
      match ← walkName data (dnsMaxHops + 1) 0 12 0 0 [] with
      | .error error => return { i with error }
      | .ok (name, qend) =>
          let i := { i with qname := trimDot name }
          if data.length < qend + 4 then return { i with error := .truncated }
          else do
            let qtype ← rd16 data p qend
            let qclass ← rd16 data p (qend + 2)
            return { i with qtype, qclass, valid := true }

end Dns

section Someip

def parseSomeip : Checked SomeipView :=
  if data.length < 16 then return ⟨⟨false, 0, 0, 0, 0, 0, 0, 0, [], .truncated⟩, .null⟩
  else do
    let p := View.whole data
    let serviceId ← rd16 data p 0
    let methodId ← rd16 data p 2
    let length ← rd32 data p 4
    let clientId ← rd16 data p 8
    let sessionId ← rd16 data p 10
    let protoVer ← p.read data 12
    let ifaceVer ← p.read data 13
    let msgType ← p.read data 14
    let returnCode ← p.read data 15
    let avail ← checkedSub data.length 16
    let fields : SomeipInfo :=
      ⟨false, serviceId, methodId, clientId, sessionId, ifaceVer, msgType, returnCode, [], .ok⟩
    let payload : View := ⟨16, avail⟩
    if length.toNat < 8 then return ⟨{ fields with error := .length }, payload⟩
    else do
      let declared ← checkedSub length.toNat 8
      if avail < declared then return ⟨{ fields with error := .length }, payload⟩
      else if protoVer ≠ 1 then return ⟨{ fields with error := .protoVer }, payload⟩
      else if knownMsgType msgType = false then return ⟨{ fields with error := .msgType }, payload⟩
      else return ⟨{ fields with valid := true }, payload⟩

def readSdEntry (e : View) (off : Nat) : Checked SdEntry := do
  let type ← e.read data off
  let serviceId ← rd16 data e (off + 4)
  let instanceId ← rd16 data e (off + 6)
  let high ← e.read data (off + 9)
  let middle ← e.read data (off + 10)
  let low ← e.read data (off + 11)
  return ⟨type, serviceId, instanceId,
    high.toUInt32 <<< 16 ||| middle.toUInt32 <<< 8 ||| low.toUInt32⟩

/-- The loop over the entries, with an offset of 32 bits. -/
def readSdEntries (e : View) (entriesLen : UInt32) : (passes : Nat) → (off : UInt32) →
    (out : List SdEntry) → Checked (List SdEntry)
  | 0, _, _ => .error .unfinished
  | passes + 1, off, out =>
      if off < entriesLen then do
        let se ← readSdEntry data e off.toNat
        readSdEntries e entriesLen passes (off + 16) (out ++ [se])
      else return out

def parseSdEntries : Checked (Option (List SdEntry)) :=
  if data.length < 8 then return none
  else do
    let entriesLen ← rd32 data (.whole data) 4
    let room ← checkedSub data.length 8
    if room < entriesLen.toNat ∨ entriesLen.toNat % 16 ≠ 0 then return none
    else return some (← readSdEntries data ⟨8, room⟩ entriesLen (data.length + 1) 0 [])

end Someip

section Tls

open Idsm.EthProbe.Tls (ExtensionTexts appendU16 isGrease)

def looksLikeTls : Checked Bool :=
  if data.length < 3 then return false
  else do
    let p := View.whole data
    let first ← p.read data 0
    if first < 20 ∨ 23 < first then return false
    else do
      let major ← p.read data 1
      let minor ← p.read data 2
      return major == 3 && minor ≤ 4

/-- The loop over `len` bytes of 16-bit numbers at `p`, with an index of 16 bits. -/
def appendWords (p : Nat) (len : UInt16) (inside : UInt16 → Bool) : (passes : Nat) →
    (i : UInt16) → (ss : String) → (first : Bool) → Checked (String × Bool)
  | 0, _, _, _ => .error .unfinished
  | passes + 1, i, ss, first =>
      if i.toNat + 1 < len.toNat ∧ inside i then do
        let v ← rd16 data (.behind data p) i.toNat
        let (ss, first) := if isGrease v then (ss, first) else appendU16 ss v first
        appendWords p len inside passes (i + 2) ss first
      else return (ss, first)

def appendGroups (ed : Nat) (elen : UInt16) (cSs : String) (cFirst : Bool) :
    Checked (String × Bool) := do
  let glen ← rd16 data (.behind data ed) 0
  appendWords data (ed + 2) glen (fun i => 2 + i.toNat + 1 < elen.toNat) (2 ^ 16) 0 cSs cFirst

/-- The loop over the point formats, with an index of 8 bits. -/
def appendFormats (ed : Nat) (elen : UInt16) (flen : UInt8) : (passes : Nat) → (i : UInt8) →
    (fSs : String) → (fFirst : Bool) → Checked (String × Bool)
  | 0, _, _, _ => .error .unfinished
  | passes + 1, i, fSs, fFirst =>
      if i.toNat < flen.toNat ∧ 1 + i.toNat < elen.toNat then do
        let format ← (View.behind data ed).read data (1 + i.toNat)
        let (fSs, fFirst) := appendU16 fSs format.toUInt16 fFirst
        appendFormats ed elen flen passes (i + 1) fSs fFirst
      else return (fSs, fFirst)

def serverName (ed : Nat) (elen : UInt16) (sni : List UInt8) : Checked (List UInt8) := do
  let listLen ← rd16 data (.behind data ed) 0
  if listLen.toNat + 2 ≤ elen.toNat then do
    let type ← (View.behind data ed).read data 2
    if type = 0 then do
      let nameLen ← rd16 data (.behind data ed) 3
      if 5 + nameLen.toNat ≤ elen.toNat then (View.behind data ed).copy data 5 nameLen.toNat
      else return sni
    else return sni
  else return sni

def readExtension (etype elen : UInt16) (ed : Nat) (texts : ExtensionTexts) :
    Checked ExtensionTexts :=
  let (exts, eFirst) :=
    if isGrease etype then (texts.exts, texts.eFirst)
    else appendU16 texts.exts etype texts.eFirst
  let texts := { texts with exts, eFirst }
  if etype = 0x0000 ∧ 5 ≤ elen.toNat then do
    let sni ← serverName data ed elen texts.sni
    return { texts with sni }
  else if etype = 0x000A ∧ 2 ≤ elen.toNat then do
    let (curves, cFirst) ← appendGroups data ed elen texts.curves texts.cFirst
    return { texts with curves, cFirst }
  else if etype = 0x000B ∧ 1 ≤ elen.toNat then do
    let flen ← (View.behind data ed).read data 0
    let (formats, fFirst) ← appendFormats data ed elen flen (2 ^ 8) 0 texts.formats texts.fFirst
    return { texts with formats, fFirst }
  else return texts

/-- The loop over the extensions. -/
def readExtensions (p extTotal : Nat) : (passes : Nat) → (eoff : Nat) → ExtensionTexts →
    Checked (Except ExtensionTexts ExtensionTexts)
  | 0, _, _ => .error .unfinished
  | passes + 1, eoff, texts =>
      if eoff + 4 ≤ extTotal then do
        let etype ← rd16 data (.behind data p) eoff
        let elen ← rd16 data (.behind data p) (eoff + 2)
        if extTotal < eoff + 4 + elen.toNat then return .error texts
        else do
          let texts ← readExtension data etype elen (p + (eoff + 4)) texts
          readExtensions p extTotal passes (eoff + (4 + elen.toNat)) texts
      else return .ok texts

-- The MD5 of a text in hexadecimal digits.
variable (md5Hex : String → String)

def readExtensionBlock (p rem : Nat) (ja3 : String) (h : Tls.TlsClientHello) :
    Checked Tls.TlsClientHello :=
  let finish (texts : ExtensionTexts) : Tls.TlsClientHello :=
    let ja3 := ja3 ++ texts.exts ++ "," ++ texts.curves ++ "," ++ texts.formats
    { h with sni := texts.sni, ja3, ja3Hash := md5Hex ja3, valid := true }
  if 2 ≤ rem then do
    let extTotal := (← rd16 data (.behind data p) 0).toNat
    let rem ← checkedSub rem 2
    if rem < extTotal then return { h with error := .malformed }
    else
      match ← readExtensions data (p + 2) extTotal (data.length + 1) 0 .empty with
      | .error texts => return { h with sni := texts.sni, error := .malformed }
      | .ok texts => return finish texts
  else return finish .empty

def readHandshake (p rem : Nat) (h : Tls.TlsClientHello) : Checked Tls.TlsClientHello :=
  if rem < 34 then return { h with error := .malformed }
  else do
    let clientVersion ← rd16 data (.behind data p) 0
    let h := { h with clientVersion }
    let p := p + 34
    let rem ← checkedSub rem 34
    if rem < 1 then return { h with error := .malformed }
    else do
      let sidLen := (← (View.behind data p).read data 0).toNat
      let p := p + 1
      let rem ← checkedSub rem 1
      if rem < sidLen then return { h with error := .malformed }
      else do
        let p := p + sidLen
        let rem ← checkedSub rem sidLen
        if rem < 2 then return { h with error := .malformed }
        else do
          let csLen ← rd16 data (.behind data p) 0
          let p := p + 2
          let rem ← checkedSub rem 2
          if rem < csLen.toNat ∨ csLen.toNat % 2 ≠ 0 then return { h with error := .malformed }
          else do
            let (ja3, _) ← appendWords data p csLen (fun _ => true) (2 ^ 16) 0
              (toString h.clientVersion.toNat ++ ",") true
            let ja3 := ja3 ++ ","
            let p := p + csLen.toNat
            let rem ← checkedSub rem csLen.toNat
            if rem < 1 then return { h with error := .malformed }
            else do
              let compLen := (← (View.behind data p).read data 0).toNat
              let p := p + 1
              let rem ← checkedSub rem 1
              if rem < compLen then return { h with error := .malformed }
              else do
                let rem ← checkedSub rem compLen
                readExtensionBlock data md5Hex (p + compLen) rem ja3 h

def parseTlsClientHello : Checked Tls.TlsClientHello := do
  let h := Tls.TlsClientHello.empty
  if !(← looksLikeTls data) then return { h with error := .notTls }
  else if data.length < 5 then return { h with error := .truncated }
  else do
    let p := View.whole data
    let rectype ← p.read data 0
    let recordVersion ← rd16 data p 1
    let reclen := (← rd16 data p 3).toNat
    let h := { h with recordVersion }
    if rectype ≠ 22 then return { h with error := .notClientHello }
    else if data.length < 5 + reclen then return { h with error := .truncated }
    else if reclen < 4 then return { h with error := .notClientHello }
    else do
      let kind ← p.read data 5
      if kind ≠ 1 then return { h with error := .notClientHello }
      else do
        let rem ← checkedSub reclen 4
        readHandshake data md5Hex 9 rem { h with consumed := 5 + reclen }

end Tls

section Http

/-- `memcmp` of the start of the buffer with a text, when it is long enough. -/
def startsWith (length : Nat) (text : List UInt8) : Checked Bool :=
  if text.length ≤ length then do
    let front ← (View.whole data).copy data 0 text.length
    return front == text
  else return false

/-- The loop over the methods. -/
def startsWithMethod : (methods : List (List UInt8)) → Checked Bool
  | [] => return false
  | m :: methods =>
      if m.length < data.length then do
        let front ← (View.whole data).copy data 0 m.length
        let space ← (View.whole data).read data m.length
        if front == m && space == 32 then return true else startsWithMethod methods
      else startsWithMethod methods

def looksLikeHttp : Checked Bool :=
  if data.length < 4 then return false
  else do
    if ← startsWithMethod data kMethods then return true
    else startsWith data data.length httpSlash

/-- The loop for the first empty line, below `len`. -/
def findHeaderEnd (len : Nat) : (passes : Nat) → (i : Nat) → Checked (Option Nat)
  | 0, _ => .error .unfinished
  | passes + 1, i =>
      if i + 3 < len then do
        let four ← (View.whole data).copy data i 4
        if four == crlf ++ crlf then return some i else findHeaderEnd len passes (i + 1)
      else return none

/-- The loop for the end of the start line. -/
def lineLength (hdrEnd : Nat) : (passes : Nat) → (i : Nat) → Checked Nat
  | 0, _ => .error .unfinished
  | passes + 1, i =>
      if i < hdrEnd then do
        let byte ← (View.whole data).read data i
        if byte = 13 then return i else lineLength hdrEnd passes (i + 1)
      else return hdrEnd

/-- `std::string::substr`, which throws when it starts behind the end. -/
def substr (text : List UInt8) (pos count : Nat) : Checked (List UInt8) :=
  if pos ≤ text.length then return (text.drop pos).take count else .error (.outside pos)

def readStatusLine (sl : List UInt8) (m : HttpView) : Checked HttpView :=
  match sl.idxOf? 32 with
  | none => return { m with error := .malformed }
  | some sp1 =>
      if sl.length < sp1 + 4 then return { m with error := .malformed }
      else do
        let count ← checkedSub sp1 5
        let version ← substr sl 5 count
        let number ← substr sl (sp1 + 1) sl.length
        return { m with version, status := ((strtoul 10 number).map fun n => n.1.toUInt16).getD 0 }

def readRequestLine (sl : List UInt8) (m : HttpView) : Checked HttpView :=
  match sl.idxOf? 32, lastIdxOf 32 sl with
  | some sp1, some sp2 =>
      if sp2 = sp1 then return { m with error := .malformed }
      else do
        let method ← substr sl 0 sp1
        let behind ← checkedSub sp2 sp1
        let count ← checkedSub behind 1
        let uri ← substr sl (sp1 + 1) count
        let version ← substr sl (sp2 + 1) sl.length
        let m := { m with method, uri, version }
        if httpSlash.isPrefixOf version = false then return { m with error := .malformed }
        else if httpMaxUri < uri.length then return { m with error := .uriTooLong }
        else return m
  | _, _ => return { m with error := .malformed }

def parseHttp : Checked HttpView := do
  let m := HttpView.empty
  if !(← looksLikeHttp data) then return { m with error := .notHttp }
  else do
    let len := if httpMaxHeader < data.length then httpMaxHeader else data.length
    match ← findHeaderEnd data len (data.length + 1) 0 with
    | none => return { m with error := .incomplete }
    | some hdrEnd =>
        let m := { m with consumed := hdrEnd + 4 }
        let lineLen ← lineLength data hdrEnd (data.length + 1) 0
        let sl ← (View.whole data).copy data 0 lineLen
        let m ←
          if ← startsWith data lineLen httpSlash then
            readStatusLine sl { m with isResponse := true }
          else readRequestLine sl { m with isRequest := true }
        if m.error ≠ .ok then return m
        else
          let blockOff := lineLen + 2
          if blockOff ≤ hdrEnd then do
            let blockLen ← checkedSub hdrEnd blockOff
            return { m with headerBlock := some ⟨blockOff, blockLen⟩ }
          else return m

end Http

end Checked

end Idsm.EthProbe
