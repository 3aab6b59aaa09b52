import Idsm.EthProbe.Packet

/-! The rule engine, `rules.cpp`, as built without PCRE2: a rule with a `pcre` option is not
loaded. -/

set_option autoImplicit false

namespace Idsm.EthProbe

inductive RuleProto where
  | any
  | tcp
  | udp
  | icmp
  deriving DecidableEq, Repr

structure Cidr where
  addr : List UInt8
  prefixLen : Nat
  v6 : Bool
  deriving DecidableEq, Repr

structure IpMatcher where
  cidrs : List Cidr
  any : Bool
  negated : Bool
  deriving DecidableEq, Repr

structure PortMatcher where
  ranges : List (UInt16 × UInt16)
  any : Bool
  negated : Bool
  deriving DecidableEq, Repr

inductive MatchBuffer where
  | raw
  | httpMethod
  | httpUri
  | httpHeader
  | dnsQuery
  deriving DecidableEq, Repr

/-- The bytes of a content; the parser refuses an empty one. -/
abbrev Pattern := { bytes : List UInt8 // bytes ≠ [] }

structure ContentMatch where
  pattern : Pattern
  buffer : MatchBuffer
  nocase : Bool
  offset : Option UInt32
  depth : Option UInt32
  distance : Option UInt32
  within : Option UInt32
  deriving DecidableEq

structure Rule where
  sid : UInt32
  proto : RuleProto
  srcIp : IpMatcher
  dstIp : IpMatcher
  srcPort : PortMatcher
  dstPort : PortMatcher
  contents : List ContentMatch
  pcrePatterns : List (List UInt8)
  deriving DecidableEq

/-- A null pointer is no buffer. -/
structure MatchBuffers where
  raw : Option (List UInt8)
  httpMethod : Option (List UInt8)
  httpUri : Option (List UInt8)
  httpHeader : Option (List UInt8)
  dnsQuery : Option (List UInt8)

def MatchBuffers.empty : MatchBuffers := ⟨none, none, none, none, none⟩

/-- The loaded rules. -/
structure RuleEngine where
  rules : List Rule
  noPcre : ∀ rule ∈ rules, rule.pcrePatterns = []

section Contents

/-- `tolower` in the C locale. -/
def toLower (byte : UInt8) : UInt8 := if 65 ≤ byte ∧ byte ≤ 90 then byte + 32 else byte

def folded (nocase : Bool) (byte : UInt8) : UInt8 := if nocase then toLower byte else byte

/-- The inner loop of the search. -/
def startsWith (nocase : Bool) : (needle hay : List UInt8) → Bool
  | [], _ => true
  | _ :: _, [] => false
  | b :: needle, a :: hay => folded nocase a == folded nocase b && startsWith nocase needle hay

/-- The index of the first occurrence. -/
def memfind (hay needle : List UInt8) (nocase : Bool) : Option Nat :=
  if needle = [] ∨ hay.length < needle.length then none
  else
    (List.range (hay.length - needle.length + 1)).find? fun i =>
      startsWith nocase needle (hay.drop i)

/-- What the escapes and hex blocks read so far stand for. -/
structure ContentReading where
  hex : Bool
  hi : Option UInt8
  out : List UInt8
  deriving DecidableEq, Repr

def isSpace (c : UInt8) : Bool := c == 32 || decide (9 ≤ c ∧ c ≤ 13)

def hexNibble (c : UInt8) : Option UInt8 :=
  if 48 ≤ c ∧ c ≤ 57 then some (c - 48)
  else
    let lower := toLower c
    if 97 ≤ lower ∧ lower ≤ 102 then some (lower - 97 + 10) else none

def contentStep (reading : ContentReading) (c : UInt8) : Except String ContentReading :=
  if c = 124 then .ok { reading with hex := !reading.hex, hi := none }
  else if reading.hex then
    if isSpace c then .ok reading
    else
      match hexNibble c with
      | none => .error "bad hex in content"
      | some nib =>
          match reading.hi with
          | none => .ok { reading with hi := some nib }
          | some hi => .ok { reading with hi := none, out := reading.out ++ [hi <<< 4 ||| nib] }
  else .ok { reading with out := reading.out ++ [c] }

/-- The loop over the value; a backslash at its end stands for itself. -/
def contentLoop (reading : ContentReading) : List UInt8 → Except String ContentReading
  | [] => .ok reading
  | [c] => contentStep reading c
  | c :: next :: rest =>
      if c = 92 ∧ reading.hex = false then
        contentLoop { reading with out := reading.out ++ [next] } rest
      else
        match contentStep reading c with
        | .error err => .error err
        | .ok reading => contentLoop reading (next :: rest)

def parseContentValue (raw : List UInt8) : Except String Pattern :=
  if raw.length < 2 ∨ raw.head? ≠ some 34 ∨ raw.getLast? ≠ some 34 then
    .error "content value must be quoted"
  else
    match contentLoop ⟨false, none, []⟩ (slice raw 1 (raw.length - 2)) with
    | .error err => .error err
    | .ok reading =>
        if reading.hex ∨ reading.hi.isSome then .error "unterminated hex block in content"
        else if found : reading.out ≠ [] then .ok ⟨reading.out, found⟩
        else .error "empty content"

def MatchBuffers.select (bufs : MatchBuffers) : MatchBuffer → Option (List UInt8)
  | .raw => bufs.raw
  | .httpMethod => bufs.httpMethod
  | .httpUri => bufs.httpUri
  | .httpHeader => bufs.httpHeader
  | .dnsQuery => bufs.dnsQuery

/-- Where the search starts. -/
def ContentMatch.start (c : ContentMatch) (prevEnd : Nat) : Nat :=
  match c.distance, c.offset with
  | some distance, _ => prevEnd + distance.toNat
  | none, some offset => offset.toNat
  | none, none => prevEnd

/-- Where a match has to end. -/
def ContentMatch.limit (c : ContentMatch) (len prevEnd : Nat) : Nat :=
  let limit :=
    match c.within with
    | some within => min len (prevEnd + within.toNat)
    | none => len
  match c.depth with
  | some depth => min limit ((c.offset.getD 0).toNat + depth.toNat)
  | none => limit

/-- The end of the match. A limit before the start makes the source's unsigned length wrap,
and its search runs past the buffer; here it ends with the buffer. -/
def contentMatches (buf : List UInt8) (c : ContentMatch) (prevEnd : Nat) : Option Nat :=
  let start := c.start prevEnd
  let limit := c.limit buf.length prevEnd
  let size := c.pattern.val.length
  if buf.length < start ∨ limit < size ∨ (start ≤ limit ∧ limit - start < size) then none
  else
    let reach := if start ≤ limit then slice buf start (limit - start) else buf.drop start
    (memfind reach c.pattern.val c.nocase).map fun found => start + found + size

/-- All contents in order; the result is where the last match in each buffer ended. -/
def contentsMatch (bufs : MatchBuffers) :
    List ContentMatch → (prevEnd : MatchBuffer → Nat) → Option (MatchBuffer → Nat)
  | [], prevEnd => some prevEnd
  | c :: rest, prevEnd =>
      match bufs.select c.buffer with
      | none => none
      | some buf =>
          match contentMatches buf c (prevEnd c.buffer) with
          | none => none
          | some stop =>
              contentsMatch bufs rest fun other =>
                if other = c.buffer then stop else prevEnd other

end Contents

section Headers

def Cidr.contains (cidr : Cidr) (ip : List UInt8) : Bool :=
  let full := cidr.prefixLen / 8
  let rem := cidr.prefixLen % 8
  let same := full == 0 || cidr.addr.take full == ip.take full
  if same && rem != 0 then
    let mask := (0xFF : UInt8) <<< UInt8.ofNat (8 - rem)
    byteAt cidr.addr full &&& mask == byteAt ip full &&& mask
  else same

def IpMatcher.matches (matcher : IpMatcher) (ip : List UInt8) (ipIsV6 : Bool) : Bool :=
  if matcher.any then true
  else if matcher.cidrs.any fun cidr => cidr.v6 == ipIsV6 && cidr.contains ip then
    !matcher.negated
  else matcher.negated

def PortMatcher.matches (matcher : PortMatcher) (port : UInt16) : Bool :=
  if matcher.any then true
  else if matcher.ranges.any fun range => decide (range.1 ≤ port ∧ port ≤ range.2) then
    !matcher.negated
  else matcher.negated

def RuleProto.matches (proto : RuleProto) (pp : ParsedPacket) : Bool :=
  match proto with
  | .tcp => pp.isTcp
  | .udp => pp.isUdp
  | .icmp => pp.l4Proto == ipProtoIcmp || pp.l4Proto == ipProtoIcmpv6
  | .any => true

/-- The header prefilter. -/
def Rule.matchesHeader (rule : Rule) (pp : ParsedPacket) : Bool :=
  rule.proto.matches pp &&
    (rule.srcIp.matches pp.srcIp pp.isIpv6 && rule.dstIp.matches pp.dstIp pp.isIpv6) &&
    (rule.srcPort.matches pp.srcPort && rule.dstPort.matches pp.dstPort)

end Headers

def Rule.matches (rule : Rule) (pp : ParsedPacket) (bufs : MatchBuffers) : Bool :=
  rule.matchesHeader pp && (contentsMatch bufs rule.contents fun _ => 0).isSome

/-- No payload option. -/
def Rule.headerOnly (rule : Rule) : Bool := rule.contents.isEmpty && rule.pcrePatterns.isEmpty

namespace RuleEngine

variable (engine : RuleEngine)

/-- `match`. -/
def matched (pp : ParsedPacket) (bufs : MatchBuffers) : List Rule :=
  engine.rules.filter fun rule => rule.matches pp bufs

def maxPatternLen : Nat :=
  (engine.rules.flatMap fun rule => rule.contents.map fun c => c.pattern.val.length).foldl max 0

end RuleEngine

end Idsm.EthProbe
