import Idsm.Managerd.ConfigManager

/-! The canonical texts of the bundles in the VSOC signer. -/

set_option autoImplicit false

namespace Idsm.VsocMock

open Idsm.Foundation
open Idsm.Json (Value Printer Binary64 dumpAt)
open Idsm.Managerd (ConfigItem Header base64Encode sortLines)

def hexWord (value : Nat) : List Char :=
  "\\u".toList ++
    [hexDigit (value / 4096), hexDigit (value / 256), hexDigit (value / 16), hexDigit value]

/-- One character of a literal under `ensure_ascii`. -/
def asciiEscaped (c : Char) : List Char :=
  if c.toNat = 0x5C then "\\\\".toList
  else if c.toNat = 0x22 then "\\\"".toList
  else if c.toNat = 0x08 then "\\b".toList
  else if c.toNat = 0x0C then "\\f".toList
  else if c.toNat = 0x0A then "\\n".toList
  else if c.toNat = 0x0D then "\\r".toList
  else if c.toNat = 0x09 then "\\t".toList
  else if 0x20 ≤ c.toNat ∧ c.toNat ≤ 0x7e then [c]
  else if c.toNat < 0x10000 then hexWord c.toNat
  else
    hexWord (0xd800 + (c.toNat - 0x10000) / 0x400) ++
      hexWord (0xdc00 + (c.toNat - 0x10000) % 0x400)

def asciiLiteral (text : String) : String :=
  "\"" ++ String.ofList (text.toList.flatMap asciiEscaped) ++ "\""

/-- `json.dumps` with sorted keys and compact separators. -/
def python (floatRepr : Binary64 → String) : Printer := ⟨asciiLiteral, floatRepr, none⟩

/-- An item's value holds no float. -/
def dumps (value : Value) : String := dumpAt (python fun _ => "") 0 value

/-- `sorted` compares by code points. -/
def canonicalBytes (seq : Int) (tenant version : String) (rollback : Bool)
    (targetEcu targetNode targetVmodel : String) (upgradeType : Int) (payloadLines : List String)
    (issuedAt expiresAt : Int) : List UInt8 :=
  let lines := [
    "seq=" ++ toString seq,
    "tenant=" ++ tenant,
    "version=" ++ version,
    "rollback=" ++ (if rollback then "1" else "0"),
    "target_ecu=" ++ targetEcu,
    "target_node=" ++ targetNode,
    "target_vmodel=" ++ targetVmodel,
    "issued_at=" ++ toString issuedAt,
    "expires_at=" ++ toString expiresAt,
    "upgrade_type=" ++ toString upgradeType] ++ sortLines payloadLines
  utf8 ("\n".intercalate lines ++ "\n")

/-- The payload of a bundle with inline rules, as `sign_rule_bundle` enumerates it. -/
def rulePayloadLines (rules : List String) : List String :=
  rules.zipIdx.map fun rule =>
    "rule:" ++ toString (10000 + rule.2) ++ ":" ++ base64Encode (utf8 rule.1)

def configItemLine (name : String) (value : Value) (version : String) : String :=
  let item : Value := .object [("config_name", .string name), ("config_value", value),
    ("config_version", .string version)]
  "item:" ++ name ++ ":" ++ base64Encode (utf8 (dumps item))

def canonicalConfigBytes (seq : Int) (tenant version : String) (rollback : Bool)
    (targetEcu targetNode targetVmodel : String) (configType : Int) (payloadLines : List String)
    (issuedAt expiresAt : Int) : List UInt8 :=
  let lines := [
    "seq=" ++ toString seq,
    "tenant=" ++ tenant,
    "version=" ++ version,
    "rollback=" ++ (if rollback then "1" else "0"),
    "target_ecu=" ++ targetEcu,
    "target_node=" ++ targetNode,
    "target_vmodel=" ++ targetVmodel,
    "issued_at=" ++ toString issuedAt,
    "expires_at=" ++ toString expiresAt,
    "config_type=" ++ toString configType] ++ sortLines payloadLines
  utf8 ("\n".intercalate lines ++ "\n")

/-- The bytes the signer signs for a bundle of these fields and items. -/
def signedBytes (header : Header) (items : List ConfigItem) : List UInt8 :=
  canonicalConfigBytes header.seq header.tenant header.version header.rollback header.target.ecu
    header.target.nodeType header.target.vmodel header.bundleType
    (items.map fun item => configItemLine item.name item.content.value item.itemVersion)
    header.issuedAt header.expiresAt

end Idsm.VsocMock
