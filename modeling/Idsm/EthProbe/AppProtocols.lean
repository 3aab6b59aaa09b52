import Idsm.EthProbe.Packet

/-! The application protocols over TCP: `proto_doip.cpp`, `proto_tls.cpp` and
`proto_http.cpp`. -/

set_option autoImplicit false

namespace Idsm.EthProbe

section Doip

def doipPort : UInt16 := 13400

inductive DoipError where
  | ok
  | truncated
  | versionInverse
  | unknownVersion
  | length
  | unknownType
  deriving DecidableEq, Repr

def DoipError.code : DoipError → UInt32
  | .ok => 0
  | .truncated => 1
  | .versionInverse => 2
  | .unknownVersion => 3
  | .length => 4
  | .unknownType => 5

structure DoipInfo where
  payloadType : UInt16
  error : DoipError
  deriving DecidableEq, Repr

def DoipInfo.valid (info : DoipInfo) : Bool := info.error == .ok

def doipRoutingActivation : UInt16 := 0x0005

def knownPayloadType (payloadType : UInt16) : Bool :=
  payloadType ≤ 0x0008 || (0x4001 ≤ payloadType && payloadType ≤ 0x4004) ||
    (0x8001 ≤ payloadType && payloadType ≤ 0x8003)

def parseDoip (data : List UInt8) : DoipInfo :=
  if data.length < 8 then ⟨0, .truncated⟩
  else
    let payloadType := rd16 data 2
    if byteAt data 0 ≠ ~~~byteAt data 1 then ⟨payloadType, .versionInverse⟩
    else if byteAt data 0 ≠ 2 ∧ byteAt data 0 ≠ 3 then ⟨payloadType, .unknownVersion⟩
    else if data.length - 8 < (rd32 data 4).toNat then ⟨payloadType, .length⟩
    else if knownPayloadType payloadType = false then ⟨payloadType, .unknownType⟩
    else ⟨payloadType, .ok⟩

/-- The alert code of one message; a truncated message is none. -/
def inspectDoip (info : DoipInfo) : Option UInt32 :=
  if info.valid = false then
    if info.error = .truncated then none else some info.error.code
  else if info.payloadType = doipRoutingActivation then some doipRoutingActivation.toUInt32
  else none

end Doip

section Tls

inductive TlsError where
  | ok
  | notTls
  | truncated
  | notClientHello
  | malformed
  deriving DecidableEq, Repr

/-- What the pipeline reads of a ClientHello. -/
structure TlsClientHello where
  clientVersion : UInt16
  error : TlsError
  deriving DecidableEq, Repr

def TlsClientHello.valid (hello : TlsClientHello) : Bool := hello.error == .ok

def tlsAlertSeenOnVehicleNet : UInt32 := 0x9001
def tlsAlertVersionLt12 : UInt32 := 0x9002
def tlsAlertMalformed : UInt32 := 0x9003

def looksLikeTls (data : List UInt8) : Bool :=
  if data.length < 3 then false
  else if byteAt data 0 < 20 ∨ 23 < byteAt data 0 then false
  else byteAt data 1 == 3 && byteAt data 2 ≤ 4

/-- The loop over the extensions: each lies within their total length. -/
def extensionsFit (extensions : List UInt8) : (fuel : Nat) → Bool
  | 0 => true
  | fuel + 1 =>
      if extensions.length < 4 then true
      else
        let stop := 4 + (rd16 extensions 2).toNat
        if extensions.length < stop then false else extensionsFit (extensions.drop stop) fuel

/-- The part of a ClientHello behind its compression methods. -/
def parseExtensions (rest : List UInt8) : TlsError :=
  if 2 ≤ rest.length then
    let extTotal := (rd16 rest 0).toNat
    if rest.length - 2 < extTotal then .malformed
    else if extensionsFit (slice rest 2 extTotal) extTotal then .ok
    else .malformed
  else .ok

/-- The handshake body: version and random, then three length-prefixed lists. -/
def parseHelloBody (body : List UInt8) : TlsClientHello :=
  if body.length < 34 then ⟨0, .malformed⟩
  else
    let clientVersion := rd16 body 0
    let rest := body.drop 34
    if rest.length < 1 then ⟨clientVersion, .malformed⟩
    else
      let sidLen := (byteAt rest 0).toNat
      let rest := rest.drop 1
      if rest.length < sidLen then ⟨clientVersion, .malformed⟩
      else
        let rest := rest.drop sidLen
        if rest.length < 2 then ⟨clientVersion, .malformed⟩
        else
          let csLen := (rd16 rest 0).toNat
          let rest := rest.drop 2
          if rest.length < csLen ∨ csLen % 2 ≠ 0 then ⟨clientVersion, .malformed⟩
          else
            let rest := rest.drop csLen
            if rest.length < 1 then ⟨clientVersion, .malformed⟩
            else
              let compLen := (byteAt rest 0).toNat
              let rest := rest.drop 1
              if rest.length < compLen then ⟨clientVersion, .malformed⟩
              else ⟨clientVersion, parseExtensions (rest.drop compLen)⟩

def parseTlsClientHello (data : List UInt8) : TlsClientHello :=
  if looksLikeTls data = false then ⟨0, .notTls⟩
  else if data.length < 5 then ⟨0, .truncated⟩
  else
    let recLen := (rd16 data 3).toNat
    if byteAt data 0 ≠ 22 then ⟨0, .notClientHello⟩
    else if data.length < 5 + recLen then ⟨0, .truncated⟩
    else if recLen < 4 ∨ byteAt data 5 ≠ 1 then ⟨0, .notClientHello⟩
    else parseHelloBody (slice data 9 (recLen - 4))

end Tls

section Http

inductive HttpError where
  | ok
  | notHttp
  | incomplete
  | malformed
  | uriTooLong
  deriving DecidableEq, Repr

def httpMaxUri : Nat := 2048
def httpMaxHeader : Nat := 8192

def httpAlertMalformed : UInt32 := 0xA001
def httpAlertUriTooLong : UInt32 := 0xA002

/-- What the pipeline reads of a message. -/
structure HttpMessage where
  isRequest : Bool
  method : List UInt8
  uri : List UInt8
  headerBlock : Option (List UInt8)
  consumed : Nat
  error : HttpError
  deriving DecidableEq, Repr

def HttpMessage.failed (consumed : Nat) (error : HttpError) : HttpMessage :=
  ⟨false, [], [], none, consumed, error⟩

/-- "GET", "POST", "PUT", "DELETE", "HEAD", "OPTIONS", "PATCH", "CONNECT" and "TRACE". -/
def kMethods : List (List UInt8) :=
  [[71, 69, 84], [80, 79, 83, 84], [80, 85, 84], [68, 69, 76, 69, 84, 69], [72, 69, 65, 68],
    [79, 80, 84, 73, 79, 78, 83], [80, 65, 84, 67, 72], [67, 79, 78, 78, 69, 67, 84],
    [84, 82, 65, 67, 69]]

/-- "HTTP/" -/
def httpSlash : List UInt8 := [72, 84, 84, 80, 47]

/-- A method and a space, or the start of a response. -/
def looksLikeHttp (data : List UInt8) : Bool :=
  if data.length < 4 then false
  else kMethods.any (fun m => (m ++ [32]).isPrefixOf data) || httpSlash.isPrefixOf data

def crlf : List UInt8 := [13, 10]

/-- The index of the first empty line's leading CR. -/
def findHeaderEnd (data : List UInt8) : Option Nat :=
  (List.range (data.length - 3)).find? fun i => (crlf ++ crlf).isPrefixOf (data.drop i)

/-- The start line, up to its first CR. -/
def startLine (header : List UInt8) : List UInt8 := header.takeWhile fun byte => byte != 13

def lastIdxOf (byte : UInt8) (line : List UInt8) : Option Nat :=
  (line.reverse.idxOf? byte).map fun i => line.length - 1 - i

/-- Where the method and the URI of a request line end. -/
def parseRequestLine (line : List UInt8) : HttpError × List UInt8 × List UInt8 :=
  match line.idxOf? 32, lastIdxOf 32 line with
  | some sp1, some sp2 =>
      if sp2 = sp1 then (.malformed, [], [])
      else
        let method := line.take sp1
        let uri := slice line (sp1 + 1) (sp2 - sp1 - 1)
        if httpSlash.isPrefixOf (line.drop (sp2 + 1)) = false then (.malformed, method, uri)
        else if httpMaxUri < uri.length then (.uriTooLong, method, uri)
        else (.ok, method, uri)
  | _, _ => (.malformed, [], [])

/-- A status line has three characters behind its first space. -/
def parseStatusLine (line : List UInt8) : HttpError :=
  match line.idxOf? 32 with
  | none => .malformed
  | some sp1 => if line.length < sp1 + 4 then .malformed else .ok

def parseHttp (data : List UInt8) : HttpMessage :=
  if looksLikeHttp data = false then .failed 0 .notHttp
  else
    let data := data.take httpMaxHeader
    match findHeaderEnd data with
    | none => .failed 0 .incomplete
    | some hdrEnd =>
        let consumed := hdrEnd + 4
        let line := startLine (data.take hdrEnd)
        let blockOff := line.length + 2
        let headerBlock :=
          if blockOff ≤ hdrEnd then some (slice data blockOff (hdrEnd - blockOff)) else none
        if httpSlash.isPrefixOf line then
          let error := parseStatusLine line
          if error = .ok then ⟨false, [], [], headerBlock, consumed, .ok⟩
          else .failed consumed error
        else
          let (error, method, uri) := parseRequestLine line
          if error = .ok then ⟨true, method, uri, headerBlock, consumed, .ok⟩
          else .failed consumed error

end Http

end Idsm.EthProbe
