import Idsm.EthProbe.Rules
import Idsm.Foundation.PrefixTrie

/-! The prefix tries of `geoip.cpp` and the verdicts over them. -/

set_option autoImplicit false

namespace Idsm.EthProbe

open Idsm.Foundation

/-- The array that holds an address of either family; one of IPv4 is in its first bytes. -/
abbrev Address := { bytes : List UInt8 // bytes.length = 16 }

def maxBits (isV6 : Bool) : Nat := if isV6 then 128 else 32

/-- An address and prefix of one family; the bits behind the prefix are arbitrary. -/
structure Net (isV6 : Bool) where
  addr : Address
  prefixLen : Nat
  fits : prefixLen ≤ maxBits isV6

def Net.cidr {isV6 : Bool} (net : Net isV6) : Cidr := ⟨net.addr.val, net.prefixLen, isV6⟩

abbrev AnyNet := (isV6 : Bool) × Net isV6

section Tries

def addrBit (addr : List UInt8) (i : Nat) : Bool :=
  (byteAt addr (i / 8) >>> UInt8.ofNat (7 - i % 8)) &&& 1 == 1

/-- The bits that a loop up to the count walks along. -/
def addrBits (addr : List UInt8) (count : Nat) : List Bool :=
  (List.range count).map (addrBit addr)

abbrev TrieNode := PrefixTrie Bool

structure Trie where
  root : TrieNode
  inserted : Nat

def Trie.empty : Trie := ⟨.node false fun _ => .absent, 0⟩

def Trie.insert (trie : Trie) (addr : List UInt8) (prefixLen bits : Nat) : Trie where
  root := trie.root.insert (addrBits addr (min prefixLen bits))
  inserted := trie.inserted + 1

def Trie.contains (trie : Trie) (addr : List UInt8) (bits : Nat) : Bool :=
  trie.root.contains (addrBits addr bits)

def Trie.insertNet {isV6 : Bool} (trie : Trie) (net : Net isV6) : Trie :=
  trie.insert net.addr.val net.prefixLen (maxBits isV6)

/-- One trie for each family. -/
structure TriePair where
  v4 : Trie
  v6 : Trie

def TriePair.empty : TriePair := ⟨.empty, .empty⟩

def TriePair.insert (tries : TriePair) (net : AnyNet) : TriePair :=
  if net.1 then { tries with v6 := tries.v6.insertNet net.2 }
  else { tries with v4 := tries.v4.insertNet net.2 }

def TriePair.contains (tries : TriePair) (ip : Address) (isV6 : Bool) : Bool :=
  if isV6 then tries.v6.contains ip.val 128 else tries.v4.contains ip.val 32

end Tries

structure CidrSet where
  tries : TriePair
  n : Nat

namespace CidrSet

def empty : CidrSet := ⟨.empty, 0⟩

def add (set : CidrSet) (net : AnyNet) : CidrSet := ⟨set.tries.insert net, set.n + 1⟩

def contains (set : CidrSet) (ip : Address) (isV6 : Bool) : Bool := set.tries.contains ip isV6

end CidrSet

inductive GeoVerdict where
  | unknown
  | home
  | domestic
  | foreign
  deriving DecidableEq, Repr

structure GeoIp where
  domestic : TriePair
  home : TriePair
  domesticLoaded : Bool

namespace GeoIp

/-- The nets of the lines that are one. -/
def loadCidrs (geo : GeoIp) (nets : List AnyNet) : GeoIp :=
  { geo with domestic := nets.foldl TriePair.insert geo.domestic, domesticLoaded := true }

def setHomeNets (geo : GeoIp) (nets : List AnyNet) : GeoIp :=
  { geo with home := nets.foldl TriePair.insert .empty }

def classify (geo : GeoIp) (ip : Address) (isV6 : Bool) : GeoVerdict :=
  if geo.home.contains ip isV6 then .home
  else if geo.domesticLoaded = false then .unknown
  else if geo.domestic.contains ip isV6 then .domestic
  else .foreign

end GeoIp

end Idsm.EthProbe
