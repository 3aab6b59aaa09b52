import Idsm.EthProbe.AppProtocols

/-! `proto_tls.cpp` with every field of its result: the server name and the JA3 text beside what the
pipeline reads. -/

set_option autoImplicit false

namespace Idsm.EthProbe.Tls

structure TlsClientHello where
  valid : Bool
  recordVersion : UInt16
  clientVersion : UInt16
  sni : List UInt8
  ja3 : String
  ja3Hash : String
  consumed : Nat
  error : TlsError
  deriving DecidableEq, Repr

def TlsClientHello.empty : TlsClientHello := ⟨false, 0, 0, [], "", "", 0, .ok⟩

def isGrease (v : UInt16) : Bool := v &&& 0x0F0F == 0x0A0A && v >>> 8 == v &&& 0x00FF

/-- The stream and the flag of its first number. -/
def appendU16 (ss : String) (v : UInt16) (first : Bool) : String × Bool :=
  ((if first then ss else ss ++ "-") ++ toString v.toNat, false)

/-- The loop over `len` bytes of 16-bit numbers at `p`; its index has 16 bits itself. -/
def appendWords (p : List UInt8) (len : UInt16) (inside : UInt16 → Bool) (i : UInt16)
    (ss : String) (first : Bool) : String × Bool :=
  if i.toNat + 1 < len.toNat ∧ inside i then
    let v := rd16 p i.toNat
    let (ss, first) := if isGrease v then (ss, first) else appendU16 ss v first
    appendWords p len inside (i + 2) ss first
  else (ss, first)
termination_by len.toNat - i.toNat
decreasing_by
  -- The index does not wrap: it stays below a length of 16 bits.
  have bound := len.toNat_lt
  rw [UInt16.toNat_add, Nat.mod_eq_of_lt (by simp only [UInt16.reduceToNat]; omega)]
  simp only [UInt16.reduceToNat]
  omega

def appendCiphers (p : List UInt8) (csLen : UInt16) (ja3 : String) : String :=
  (appendWords p csLen (fun _ => true) 0 ja3 true).1

def appendGroups (ed : List UInt8) (elen : UInt16) (cSs : String) (cFirst : Bool) :
    String × Bool :=
  appendWords (ed.drop 2) (rd16 ed 0) (fun i => 2 + i.toNat + 1 < elen.toNat) 0 cSs cFirst

/-- The loop over the point formats; its index has 8 bits. -/
def appendFormats (ed : List UInt8) (elen : UInt16) (i : UInt8) (fSs : String) (fFirst : Bool) :
    String × Bool :=
  if i.toNat < (byteAt ed 0).toNat ∧ 1 + i.toNat < elen.toNat then
    let (fSs, fFirst) := appendU16 fSs (byteAt ed (1 + i.toNat)).toUInt16 fFirst
    appendFormats ed elen (i + 1) fSs fFirst
  else (fSs, fFirst)
termination_by (byteAt ed 0).toNat - i.toNat
decreasing_by
  have bound := (byteAt ed 0).toNat_lt
  rw [UInt8.toNat_add, Nat.mod_eq_of_lt (by simp only [UInt8.reduceToNat]; omega)]
  simp only [UInt8.reduceToNat]
  omega

/-- The streams of the extension loop with their flags, and the name in the result. -/
structure ExtensionTexts where
  sni : List UInt8
  exts : String
  eFirst : Bool
  curves : String
  cFirst : Bool
  formats : String
  fFirst : Bool
  deriving DecidableEq, Repr

def ExtensionTexts.empty : ExtensionTexts := ⟨[], "", true, "", true, "", true⟩

/-- The name of a `server_name` extension; what is too short keeps the name before it. -/
def serverName (ed : List UInt8) (elen : UInt16) (sni : List UInt8) : List UInt8 :=
  if (rd16 ed 0).toNat + 2 ≤ elen.toNat ∧ byteAt ed 2 = 0 then
    if 5 + (rd16 ed 3).toNat ≤ elen.toNat then slice ed 5 (rd16 ed 3).toNat else sni
  else sni

/-- One extension: its type, and what the probe reads of its data. -/
def readExtension (etype elen : UInt16) (ed : List UInt8) (texts : ExtensionTexts) :
    ExtensionTexts :=
  let (exts, eFirst) :=
    if isGrease etype then (texts.exts, texts.eFirst)
    else appendU16 texts.exts etype texts.eFirst
  let texts := { texts with exts, eFirst }
  if etype = 0x0000 ∧ 5 ≤ elen.toNat then { texts with sni := serverName ed elen texts.sni }
  else if etype = 0x000A ∧ 2 ≤ elen.toNat then
    let (curves, cFirst) := appendGroups ed elen texts.curves texts.cFirst
    { texts with curves, cFirst }
  else if etype = 0x000B ∧ 1 ≤ elen.toNat then
    let (formats, fFirst) := appendFormats ed elen 0 texts.formats texts.fFirst
    { texts with formats, fFirst }
  else texts

/-- The loop over the extensions; an extension behind the end stops it as an error. -/
def readExtensions (p : List UInt8) (extTotal eoff : Nat) (texts : ExtensionTexts) :
    Except ExtensionTexts ExtensionTexts :=
  if eoff + 4 ≤ extTotal then
    let etype := rd16 p eoff
    let elen := rd16 p (eoff + 2)
    if extTotal < eoff + 4 + elen.toNat then .error texts
    else
      readExtensions p extTotal (eoff + (4 + elen.toNat))
        (readExtension etype elen (p.drop (eoff + 4)) texts)
  else .ok texts
termination_by extTotal - eoff

section Parse

-- The MD5 of a text in hexadecimal digits.
variable (md5Hex : String → String)

/-- `ja3` as it stands behind the compression methods. -/
def readExtensionBlock (p : List UInt8) (rem : Nat) (ja3 : String) (h : TlsClientHello) :
    TlsClientHello :=
  let finish (texts : ExtensionTexts) : TlsClientHello :=
    let ja3 := ja3 ++ texts.exts ++ "," ++ texts.curves ++ "," ++ texts.formats
    { h with sni := texts.sni, ja3, ja3Hash := md5Hex ja3, valid := true }
  if 2 ≤ rem then
    let extTotal := (rd16 p 0).toNat
    if rem - 2 < extTotal then { h with error := .malformed }
    else
      match readExtensions (p.drop 2) extTotal 0 .empty with
      | .error texts => { h with sni := texts.sni, error := .malformed }
      | .ok texts => finish texts
  else finish .empty

/-- The body of the handshake: the `rem` bytes at `p`. -/
def readHandshake (p : List UInt8) (rem : Nat) (h : TlsClientHello) : TlsClientHello :=
  if rem < 34 then { h with error := .malformed }
  else
    let h := { h with clientVersion := rd16 p 0 }
    let (p, rem) := (p.drop 34, rem - 34)
    if rem < 1 then { h with error := .malformed }
    else
      let sidLen := (byteAt p 0).toNat
      let (p, rem) := (p.drop 1, rem - 1)
      if rem < sidLen then { h with error := .malformed }
      else
        let (p, rem) := (p.drop sidLen, rem - sidLen)
        if rem < 2 then { h with error := .malformed }
        else
          let csLen := rd16 p 0
          let (p, rem) := (p.drop 2, rem - 2)
          if rem < csLen.toNat ∨ csLen.toNat % 2 ≠ 0 then { h with error := .malformed }
          else
            let ja3 := appendCiphers p csLen (toString h.clientVersion.toNat ++ ",") ++ ","
            let (p, rem) := (p.drop csLen.toNat, rem - csLen.toNat)
            if rem < 1 then { h with error := .malformed }
            else
              let compLen := (byteAt p 0).toNat
              let (p, rem) := (p.drop 1, rem - 1)
              if rem < compLen then { h with error := .malformed }
              else readExtensionBlock md5Hex (p.drop compLen) (rem - compLen) ja3 h

def parseTlsClientHello (data : List UInt8) : TlsClientHello :=
  let h := TlsClientHello.empty
  if !looksLikeTls data then { h with error := .notTls }
  else if data.length < 5 then { h with error := .truncated }
  else
    let h := { h with recordVersion := rd16 data 1 }
    let reclen := (rd16 data 3).toNat
    if byteAt data 0 ≠ 22 then { h with error := .notClientHello }
    else if data.length < 5 + reclen then { h with error := .truncated }
    else if reclen < 4 ∨ byteAt data 5 ≠ 1 then { h with error := .notClientHello }
    else readHandshake md5Hex (data.drop 9) (reclen - 4) { h with consumed := 5 + reclen }

end Parse

end Idsm.EthProbe.Tls
