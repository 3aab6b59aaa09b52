import Idsm.EthProbe.AddressText

/-! The lines of a rules file, `rules.cpp`: the comment at their end, the header, the options,
and which of them `load_file` takes. -/

set_option autoImplicit false

namespace Idsm.EthProbe

open Idsm.Foundation

/-- The text of a message, and the part of the line that it ends with. -/
structure RuleError where
  text : String
  tok : List UInt8
  deriving DecidableEq, Repr

section Ports

def parseU16 (s : List UInt8) : Option UInt16 :=
  if s = [] then none
  else
    match strtoul 10 (cString s) with
    | some (v, []) => if 65535 < v then none else some v.toUInt16
    | _ => none

/-- One end of a range; the other end of the numbers when it is left out. -/
def parseBound (other : UInt16) (s : List UInt8) : Option UInt16 :=
  if s = [] then some other else parseU16 s

def parsePorts (negated : Bool) (tok : List UInt8) : Except RuleError PortMatcher :=
  match cutAt 58 tok with
  | (lo, some hi) =>
      match parseBound 0 lo, parseBound 65535 hi with
      | some lo, some hi =>
          if hi < lo then .error ⟨"inverted port range: ", tok⟩
          else .ok ⟨[(lo, hi)], false, negated⟩
      | _, _ => .error ⟨"bad port range: ", tok⟩
  | (_, none) =>
      match parseU16 tok with
      | none => .error ⟨"bad port: ", tok⟩
      | some port => .ok ⟨[(port, port)], false, negated⟩

/-- `parse_port_matcher`. -/
def parsePortMatcher (tok : List UInt8) : Except RuleError PortMatcher :=
  if tok = [97, 110, 121] then .ok ⟨[], true, false⟩
  else
    match tok with
    | 33 :: tok => parsePorts true tok
    | tok => parsePorts false tok

end Ports

section Options

/-- The quotes that a character opens or closes; no escape is known here. -/
def toggled (quoted : Bool) (c : UInt8) : Bool := if c = 34 then !quoted else quoted

/-- The pieces between the semicolons outside of quotes. -/
def splitOptions (quoted : Bool) (cur : List UInt8) : List UInt8 → List (List UInt8)
  | [] => if trim cur = [] then [] else [trim cur]
  | c :: rest =>
      if c = 59 ∧ toggled quoted c = false then trim cur :: splitOptions false [] rest
      else splitOptions (toggled quoted c) (cur ++ [c]) rest

def unquote (raw : List UInt8) : List UInt8 :=
  if 2 ≤ raw.length ∧ raw.head? = some 34 ∧ raw.getLast? = some 34 then
    slice raw 1 (raw.length - 2)
  else raw

inductive OptionKey where
  | msg
  | sid
  | rev
  | content
  | nocase
  | offset
  | depth
  | distance
  | within
  | buffer (buffer : MatchBuffer)
  | pcre
  | ignored
  deriving DecidableEq, Repr

def optionKeys : List (List UInt8 × OptionKey) :=
  [([109, 115, 103], .msg),
    ([115, 105, 100], .sid),
    ([114, 101, 118], .rev),
    ([99, 111, 110, 116, 101, 110, 116], .content),
    ([110, 111, 99, 97, 115, 101], .nocase),
    ([111, 102, 102, 115, 101, 116], .offset),
    ([100, 101, 112, 116, 104], .depth),
    ([100, 105, 115, 116, 97, 110, 99, 101], .distance),
    ([119, 105, 116, 104, 105, 110], .within),
    ([104, 116, 116, 112, 95, 109, 101, 116, 104, 111, 100], .buffer .httpMethod),
    ([104, 116, 116, 112, 95, 117, 114, 105], .buffer .httpUri),
    ([104, 116, 116, 112, 95, 104, 101, 97, 100, 101, 114], .buffer .httpHeader),
    ([100, 110, 115, 95, 113, 117, 101, 114, 121], .buffer .dnsQuery),
    ([112, 99, 114, 101], .pcre),
    ([99, 108, 97, 115, 115, 116, 121, 112, 101], .ignored),
    ([109, 101, 116, 97, 100, 97, 116, 97], .ignored),
    ([114, 101, 102, 101, 114, 101, 110, 99, 101], .ignored),
    ([103, 105, 100], .ignored),
    ([112, 114, 105, 111, 114, 105, 116, 121], .ignored),
    ([102, 108, 111, 119], .ignored)]

/-- The rule as far as it is read, and the buffer that the next content binds to. -/
structure RuleDraft where
  rule : Rule
  rev : UInt32
  msg : List UInt8
  curBuffer : MatchBuffer
  deriving DecidableEq

namespace RuleDraft

variable (draft : RuleDraft)

def addContent (pattern : Pattern) : RuleDraft :=
  { draft with rule := { draft.rule with
      contents := draft.rule.contents ++
        [⟨pattern, draft.curBuffer, false, none, none, none, none⟩] } }

/-- A modifier of the last content. -/
def changeLast (text : String) (change : ContentMatch → ContentMatch) :
    Except RuleError RuleDraft :=
  if draft.rule.contents = [] then .error ⟨text, []⟩
  else .ok { draft with rule := { draft.rule with
    contents := draft.rule.contents.modify (draft.rule.contents.length - 1) change } }

/-- A modifier with a number; the content is asked for before the number. -/
def changeLastBy (missing bad : String) (value : List UInt8)
    (change : UInt32 → ContentMatch → ContentMatch) : Except RuleError RuleDraft :=
  if draft.rule.contents = [] then .error ⟨missing, []⟩
  else
    match parseU32 value with
    | none => .error ⟨bad, []⟩
    | some v => draft.changeLast missing (change v)

end RuleDraft

/-- The key of an option and its value, empty without a colon. -/
def optionParts (opt : List UInt8) : List UInt8 × List UInt8 :=
  match cutAt 58 opt with
  | (key, none) => (trim key, [])
  | (key, some value) => (trim key, trim value)

def readOption (draft : RuleDraft) (key value : List UInt8) : Except RuleError RuleDraft :=
  match optionKeys.lookup key with
  | some .msg => .ok { draft with msg := unquote value }
  | some .sid =>
      match parseU32 value with
      | none => .error ⟨"bad sid", []⟩
      | some sid => .ok { draft with rule := { draft.rule with sid } }
  | some .rev =>
      match parseU32 value with
      | none => .error ⟨"bad rev", []⟩
      | some rev => .ok { draft with rev }
  | some .content =>
      match parseContentValue value with
      | .error err => .error ⟨err, []⟩
      | .ok pattern => .ok (draft.addContent pattern)
  | some .nocase => draft.changeLast "nocase without content" fun c => { c with nocase := true }
  | some .offset =>
      draft.changeLastBy "offset without content" "bad offset" value
        fun v c => { c with offset := some v }
  | some .depth =>
      draft.changeLastBy "depth without content" "bad depth" value
        fun v c => { c with depth := some v }
  | some .distance =>
      draft.changeLastBy "distance without content" "bad distance" value
        fun v c => { c with distance := some v }
  | some .within =>
      draft.changeLastBy "within without content" "bad within" value
        fun v c => { c with within := some v }
  | some (.buffer buffer) => .ok { draft with curBuffer := buffer }
  | some .pcre =>
      .ok { draft with rule := { draft.rule with
        pcrePatterns := draft.rule.pcrePatterns ++ [unquote value] } }
  | some .ignored => .ok draft
  | none => .error ⟨"unknown option: ", key⟩

/-- The options in their order; an empty one is passed over. -/
def readOptions (draft : RuleDraft) : List (List UInt8) → Except RuleError RuleDraft
  | [] => .ok draft
  | opt :: opts =>
      if opt = [] then readOptions draft opts
      else
        match readOption draft (optionParts opt).1 (optionParts opt).2 with
        | .error err => .error err
        | .ok draft => readOptions draft opts

end Options

section Lines

/-- The words of a text, as a stream reads them. -/
def words (text : List UInt8) : List (List UInt8) :=
  (text.splitOnP isSpace).filter fun word => decide (word ≠ [])

def parseProto (proto : List UInt8) : Option RuleProto :=
  if proto = [116, 99, 112] then some .tcp
  else if proto = [117, 100, 112] then some .udp
  else if proto = [105, 99, 109, 112] then some .icmp
  else if proto = [105, 112] then some .any
  else none

def matcherError : MatcherError → RuleError
  | .undefinedVariable tok => ⟨"undefined variable ", tok⟩
  | .badCidrInList item => ⟨"bad CIDR in list: ", item⟩
  | .badAddress tok => ⟨"bad address: ", tok⟩
  | .emptyList => ⟨"", []⟩

/-- The header in front of the options. -/
def parseHeader (vars : VarMap) (header : List UInt8) : Parsed RuleError RuleDraft :=
  match words header with
  | action :: proto :: sip :: sport :: dir :: dip :: dport :: _ =>
      if action ≠ [97, 108, 101, 114, 116] then .rejected ⟨"unsupported action: ", action⟩
      else if dir ≠ [45, 62] then .rejected ⟨"unsupported direction: ", dir⟩
      else
        match parseProto proto with
        | none => .rejected ⟨"unsupported protocol: ", proto⟩
        | some proto =>
            match parseIpMatcher vars sip with
            | .rejected err => .rejected (matcherError err)
            | .outOfBounds => .outOfBounds
            | .accepted srcIp =>
                match parseIpMatcher vars dip with
                | .rejected err => .rejected (matcherError err)
                | .outOfBounds => .outOfBounds
                | .accepted dstIp =>
                    match parsePortMatcher sport, parsePortMatcher dport with
                    | .error err, _ => .rejected err
                    | .ok _, .error err => .rejected err
                    | .ok srcPort, .ok dstPort =>
                        .accepted ⟨⟨0, proto, srcIp, dstIp, srcPort, dstPort, [], []⟩, 0, [], .raw⟩
  | _ => .rejected ⟨"malformed rule header", []⟩

/-- The last place of a character. -/
def lastIdxOf? (mark : UInt8) (text : List UInt8) : Option Nat :=
  (text.reverse.idxOf? mark).map fun behind => text.length - 1 - behind

/-- The text in front of the first parenthesis, and that up to the last. -/
def cutParens (line : List UInt8) : Option (List UInt8 × List UInt8) :=
  match line.idxOf? 40, lastIdxOf? 41 line with
  | some lp, some rp =>
      if rp ≤ lp then none else some (line.take lp, slice line (lp + 1) (rp - lp - 1))
  | _, _ => none

/-- The header, then the options, then the number of the rule. -/
def parseCut (vars : VarMap) (header body : List UInt8) : Parsed RuleError RuleDraft :=
  match parseHeader vars header with
  | .rejected err => .rejected err
  | .outOfBounds => .outOfBounds
  | .accepted draft =>
      match readOptions draft (splitOptions false [] body) with
      | .error err => .rejected err
      | .ok draft => if draft.rule.sid = 0 then .rejected ⟨"missing sid", []⟩ else .accepted draft

/-- `parse_rule`. -/
def parseRule (vars : VarMap) (line : List UInt8) : Parsed RuleError RuleDraft :=
  match cutParens (trim line) with
  | none => .rejected ⟨"missing option parens", []⟩
  | some (header, body) => parseCut vars header body

/-- The line up to a comment outside of quotes. -/
def stripComment (quoted : Bool) : List UInt8 → List UInt8
  | [] => []
  | c :: rest =>
      if c = 35 ∧ toggled quoted c = false then []
      else c :: stripComment (toggled quoted c) rest

inductive LoadedLine where
  | blank
  | skipped (err : RuleError)
  | outOfBounds
  | loaded (draft : RuleDraft)
  deriving DecidableEq

/-- What `load_file` does with a line. -/
def loadLine (vars : VarMap) (line : List UInt8) : LoadedLine :=
  let stripped := trim (stripComment false line)
  if stripped = [] then .blank
  else
    match parseRule vars stripped with
    | .rejected err => .skipped err
    | .outOfBounds => .outOfBounds
    | .accepted draft =>
        if draft.rule.pcrePatterns = [] then .loaded draft
        else .skipped ⟨"pcre not supported in this build — rule skipped", []⟩

end Lines

end Idsm.EthProbe
