import Mathlib

/-! The replay of classic pcap files. The Ethernet and the CAN probe read them with the same
code, each for a link type of its own. -/

set_option autoImplicit false

namespace Idsm.Probe

def byteAt (p : List UInt8) (index : Nat) : Nat := (p.getD index 0).toNat

/-- Four bytes as the machine keeps them, the low one first. -/
def copy32 (p : List UInt8) (index : Nat) : UInt32 :=
  .ofNat (byteAt p index + byteAt p (index + 1) * 2 ^ 8 + byteAt p (index + 2) * 2 ^ 16 +
    byteAt p (index + 3) * 2 ^ 24)

def bswap32 (v : UInt32) : UInt32 :=
  .ofNat (v.toNat / 2 ^ 24 + v.toNat / 2 ^ 16 % 2 ^ 8 * 2 ^ 8 + v.toNat / 2 ^ 8 % 2 ^ 8 * 2 ^ 16 +
    v.toNat % 2 ^ 8 * 2 ^ 24)

def rd32 (swap : Bool) (p : List UInt8) (index : Nat) : UInt32 :=
  if swap then bswap32 (copy32 p index) else copy32 p index

/-- The calls of the callback with their times, and the error the replay ends with. -/
structure Replay where
  calls : List (List UInt8 × UInt64)
  error : Option String
  deriving DecidableEq, Repr

def Replay.call (frame : List UInt8) (time : UInt64) (replay : Replay) : Replay :=
  { replay with calls := (frame, time) :: replay.calls }

/-- The records from here on. The first time is kept once it is not zero; a record that the
file cuts off ends the replay. -/
def replayRecords (swap : Bool) (unit : UInt32) : Nat → UInt64 → List UInt8 → Replay
  | 0, _, _ => ⟨[], none⟩
  | fuel + 1, firstTsMs, rest =>
      if rest.length < 16 then ⟨[], none⟩
      else
        let tsSec := rd32 swap rest 0
        let tsFrac := rd32 swap rest 4
        let incl := rd32 swap rest 8
        if 16 * 1024 * 1024 < incl then ⟨[], some "absurd pcap record length"⟩
        else
          let body := rest.drop 16
          if body.length < incl.toNat then ⟨[], none⟩
          else
            let tsMs := tsSec.toUInt64 * 1000 + (tsFrac / unit).toUInt64
            let firstTsMs := if firstTsMs = 0 then tsMs else firstTsMs
            (replayRecords swap unit fuel firstTsMs (body.drop incl.toNat)).call
              (body.take incl.toNat) (tsMs - firstTsMs)

/-- `replay_pcap` of a file, or of none that can be opened, for one link type. -/
def replayPcap (linktype : UInt32) (linkName : String) (path : String)
    (file : Option (List UInt8)) : Replay :=
  match file with
  | none => ⟨[], some ("cannot open pcap: " ++ path)⟩
  | some gh =>
      if gh.length < 24 then ⟨[], some "truncated pcap global header"⟩
      else
        let magic := copy32 gh 0
        let swap := magic == 0xD4C3B2A1 || magic == 0x4D3CB2A1
        if swap = false ∧ magic ≠ 0xA1B2C3D4 ∧ magic ≠ 0xA1B23C4D then
          ⟨[], some "not a classic pcap file (bad magic)"⟩
        else if rd32 swap gh 20 ≠ linktype then
          ⟨[], some ("unsupported pcap link type (expected " ++ linkName ++ ", got " ++
            toString (rd32 swap gh 20).toNat ++ ")")⟩
        else
          let unit := if magic = 0xA1B23C4D ∨ magic = 0x4D3CB2A1 then 1000000 else 1000
          replayRecords swap unit gh.length 0 (gh.drop 24)

end Idsm.Probe

namespace Idsm.EthProbe

def replayPcap : String → Option (List UInt8) → Probe.Replay :=
  Probe.replayPcap 1 "Ethernet=1"

end Idsm.EthProbe

namespace Idsm.CanProbe

def linktypeCanSocketcan : UInt32 := 227

def replayPcap : String → Option (List UInt8) → Probe.Replay :=
  Probe.replayPcap linktypeCanSocketcan "CAN_SOCKETCAN=227"

end Idsm.CanProbe
