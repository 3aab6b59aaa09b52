import Idsm.EthProbe.GeoIp

/-! What the prefix tries hold, against the comparison of a rule's address matcher. -/

set_option autoImplicit false

namespace Idsm.EthProbe

open Idsm.Foundation

section Bits

variable {a b : UInt8} {addr ip : List UInt8} {count : Nat}

def byteBit (byte : UInt8) (j : Nat) : Bool := byte.toBitVec.getMsbD j

theorem byte_eq_iff : a = b ↔ ∀ j < 8, byteBit a j = byteBit b j := by
  constructor
  · rintro rfl j _
    rfl
  · intro same
    apply UInt8.toBitVec_inj.mp
    apply BitVec.eq_of_getMsbD_eq
    exact same

private theorem shifted_bit : ∀ j < 8, ∀ bits : BitVec 8,
    (UInt8.ofBitVec bits >>> UInt8.ofNat (7 - j) &&& 1 == 1) = bits.getMsbD j := by
  decide +kernel

theorem addrBit_eq (addr : List UInt8) (i : Nat) :
    addrBit addr i = byteBit (byteAt addr (i / 8)) (i % 8) :=
  shifted_bit (i % 8) (Nat.mod_lt i (by omega)) (byteAt addr (i / 8)).toBitVec

private theorem mask_bit : ∀ rem < 8, 0 < rem → ∀ j < 8,
    byteBit ((0xFF : UInt8) <<< UInt8.ofNat (8 - rem)) j = decide (j < rem) := by
  decide

/-- Under the mask of so many bits, bytes agree when these bits do. -/
theorem masked_eq_iff {rem : Nat} (positive : 0 < rem) (inByte : rem < 8) :
    a &&& (0xFF : UInt8) <<< UInt8.ofNat (8 - rem) =
        b &&& (0xFF : UInt8) <<< UInt8.ofNat (8 - rem) ↔
      ∀ j < rem, byteBit a j = byteBit b j := by
  have masked (byte : UInt8) {j : Nat} (within : j < 8) :
      byteBit (byte &&& (0xFF : UInt8) <<< UInt8.ofNat (8 - rem)) j =
        (byteBit byte j && decide (j < rem)) := by
    rw [← mask_bit rem inByte positive j within]
    exact BitVec.getMsbD_and
  rw [byte_eq_iff]
  constructor
  · intro same j early
    have bits := same j (by omega)
    rwa [masked a (by omega), masked b (by omega), decide_eq_true early, Bool.and_true,
      Bool.and_true] at bits
  · intro same j within
    rw [masked a within, masked b within]
    by_cases early : j < rem
    · rw [same j early]
    · rw [decide_eq_false early, Bool.and_false, Bool.and_false]

theorem addrBits_prefix_iff {bits : Nat} (within : count ≤ bits) :
    addrBits addr count <+: addrBits ip bits ↔ ∀ i < count, addrBit addr i = addrBit ip i := by
  have front : (addrBits ip bits).take count = addrBits ip count := by
    rw [addrBits, ← List.map_take, List.take_range, Nat.min_eq_left within, addrBits]
  have long : (addrBits addr count).length = count := by simp [addrBits]
  rw [List.prefix_iff_eq_take, long, front, addrBits, addrBits, List.map_inj_left]
  simp only [List.mem_range]

end Bits

section Matching

variable {isV6 : Bool}

/-- Bit by bit. -/
def Net.Covers (net : Net isV6) (ip : Address) : Prop :=
  ∀ i < net.prefixLen, addrBit net.addr.val i = addrBit ip.val i

private theorem take_eq_iff (addr ip : Address) {full : Nat} (within : full ≤ 16) :
    addr.val.take full = ip.val.take full ↔
      ∀ k < full, byteAt addr.val k = byteAt ip.val k := by
  have addrLong := addr.property
  have ipLong := ip.property
  constructor
  · intro same k early
    have bytes := congrArg (fun front => front.getD k 0) same
    simpa [byteAt, List.getD_eq_getElem?_getD, List.getElem?_take, early] using bytes
  · intro same
    apply List.ext_getElem (by simp [addrLong, ipLong])
    intro k early _
    rw [List.length_take] at early
    have bytes := same k (by omega)
    simpa [byteAt, List.getD_eq_getElem?_getD, List.getElem?_eq_getElem,
      show k < addr.val.length by omega, show k < ip.val.length by omega] using bytes

private theorem addrBit_at (addr : List UInt8) (k : Nat) {j : Nat} (within : j < 8) :
    addrBit addr (8 * k + j) = byteBit (byteAt addr k) j := by
  rw [addrBit_eq, show (8 * k + j) / 8 = k by omega, show (8 * k + j) % 8 = j by omega]

/-- The bits of a prefix, as whole bytes and what is left. -/
theorem covers_iff_bytes (net : Net isV6) (ip : Address) :
    net.Covers ip ↔
      (∀ k < net.prefixLen / 8, byteAt net.addr.val k = byteAt ip.val k) ∧
        ∀ j < net.prefixLen % 8, byteBit (byteAt net.addr.val (net.prefixLen / 8)) j =
          byteBit (byteAt ip.val (net.prefixLen / 8)) j := by
  constructor
  · intro covers
    constructor
    · intro k early
      apply byte_eq_iff.2
      intro j within
      have bits := covers (8 * k + j) (by omega)
      rwa [addrBit_at _ _ within, addrBit_at _ _ within] at bits
    · intro j early
      have bits := covers (8 * (net.prefixLen / 8) + j) (by omega)
      rwa [addrBit_at _ _ (by omega), addrBit_at _ _ (by omega)] at bits
  · intro ⟨bytes, rest⟩ i early
    rw [addrBit_eq, addrBit_eq]
    by_cases whole : i / 8 < net.prefixLen / 8
    · rw [bytes _ whole]
    · have last : i / 8 = net.prefixLen / 8 := by omega
      rw [last]
      exact rest (i % 8) (by omega)

/-- The comparison of whole bytes and of a masked one is the comparison of the bits. -/
theorem cidr_contains_iff (net : Net isV6) (ip : Address) :
    net.cidr.contains ip.val = true ↔ net.Covers ip := by
  have within : net.prefixLen / 8 ≤ 16 := by
    have fits := net.fits
    unfold maxBits at fits
    split at fits <;> omega
  have front : (net.prefixLen / 8 == 0 ||
      net.addr.val.take (net.prefixLen / 8) == ip.val.take (net.prefixLen / 8)) = true ↔
        ∀ k < net.prefixLen / 8, byteAt net.addr.val k = byteAt ip.val k := by
    rw [Bool.or_eq_true, beq_iff_eq, beq_iff_eq, take_eq_iff _ _ within]
    constructor
    · intro same k early
      cases same with
      | inl none => omega
      | inr bytes => exact bytes k early
    · exact .inr
  rw [covers_iff_bytes, ← front]
  simp only [Net.cidr, Cidr.contains]
  by_cases same : (net.prefixLen / 8 == 0 ||
      net.addr.val.take (net.prefixLen / 8) == ip.val.take (net.prefixLen / 8)) = true
  · by_cases aligned : net.prefixLen % 8 = 0
    · simp [same, aligned]
    · have masked := masked_eq_iff (a := byteAt net.addr.val (net.prefixLen / 8))
        (b := byteAt ip.val (net.prefixLen / 8)) (Nat.pos_of_ne_zero aligned)
        (Nat.mod_lt _ (by omega))
      simp [same, aligned, masked]
  · simp [same]

/-- A matcher that is not negated. -/
def matcherOf (nets : List AnyNet) : IpMatcher := ⟨nets.map fun net => net.2.cidr, false, false⟩

theorem matcherOf_matches_iff (nets : List AnyNet) (ip : Address) (isV6 : Bool) :
    (matcherOf nets).matches ip.val isV6 = true ↔
      ∃ net : Net isV6, ⟨isV6, net⟩ ∈ nets ∧ net.Covers ip := by
  have verdict : (matcherOf nets).matches ip.val isV6 =
      (matcherOf nets).cidrs.any fun cidr => cidr.v6 == isV6 && cidr.contains ip.val := by
    rw [IpMatcher.matches]
    cases (matcherOf nets).cidrs.any fun cidr => cidr.v6 == isV6 && cidr.contains ip.val <;> rfl
  rw [verdict, matcherOf, List.any_map, List.any_eq_true]
  constructor
  · intro ⟨⟨family, net⟩, member, found⟩
    obtain ⟨same, contained⟩ := Bool.and_eq_true_iff.mp found
    obtain rfl : family = isV6 := beq_iff_eq.mp same
    exact ⟨net, member, (cidr_contains_iff net ip).mp contained⟩
  · intro ⟨net, member, covers⟩
    exact ⟨⟨isV6, net⟩, member,
      Bool.and_eq_true_iff.mpr ⟨beq_iff_eq.mpr rfl, (cidr_contains_iff net ip).mpr covers⟩⟩

end Matching

section Tries

variable {isV6 : Bool}

theorem contains_insertNets (trie : Trie) (nets : List (Net isV6)) (ip : Address) :
    (nets.foldl Trie.insertNet trie).contains ip.val (maxBits isV6) = true ↔
      (∃ net ∈ nets, net.Covers ip) ∨ trie.contains ip.val (maxBits isV6) = true := by
  have roots : (nets.foldl Trie.insertNet trie).root =
      (nets.map fun net => addrBits net.addr.val net.prefixLen).foldl PrefixTrie.insert
        trie.root := by
    induction nets generalizing trie with
    | nil => rfl
    | cons net nets ih =>
        rw [List.foldl_cons, ih, List.map_cons, List.foldl_cons, Trie.insertNet, Trie.insert,
          Nat.min_eq_left net.fits]
  rw [Trie.contains, roots, PrefixTrie.contains_insertAll]
  apply or_congr_left
  constructor
  · intro ⟨path, mapped, starts⟩
    obtain ⟨net, member, rfl⟩ := List.mem_map.mp mapped
    exact ⟨net, member, (addrBits_prefix_iff net.fits).mp starts⟩
  · intro ⟨net, member, covers⟩
    exact ⟨_, List.mem_map_of_mem member, (addrBits_prefix_iff net.fits).mpr covers⟩

private theorem contains_insertOne (tries : TriePair) (family : Bool) (net : Net family)
    (ip : Address) (isV6 : Bool) :
    (tries.insert ⟨family, net⟩).contains ip isV6 = true ↔
      (∃ same : family = isV6, (same ▸ net).Covers ip) ∨ tries.contains ip isV6 = true := by
  cases family with
  | false =>
      cases isV6 with
      | false =>
          have one := contains_insertNets tries.v4 [net] ip
          simp only [List.foldl_cons, List.foldl_nil, List.mem_singleton, exists_eq_left] at one
          simpa [TriePair.insert, TriePair.contains, maxBits] using one
      | true => simp [TriePair.insert, TriePair.contains]
  | true =>
      cases isV6 with
      | false => simp [TriePair.insert, TriePair.contains]
      | true =>
          have one := contains_insertNets tries.v6 [net] ip
          simp only [List.foldl_cons, List.foldl_nil, List.mem_singleton, exists_eq_left] at one
          simpa [TriePair.insert, TriePair.contains, maxBits] using one

theorem contains_insertAny (tries : TriePair) (nets : List AnyNet) (ip : Address)
    (isV6 : Bool) :
    (nets.foldl TriePair.insert tries).contains ip isV6 = true ↔
      (∃ net : Net isV6, ⟨isV6, net⟩ ∈ nets ∧ net.Covers ip) ∨ tries.contains ip isV6 = true := by
  induction nets generalizing tries with
  | nil => simp
  | cons first nets ih =>
      obtain ⟨family, first⟩ := first
      rw [List.foldl_cons, ih, contains_insertOne]
      constructor
      · intro held
        rcases held with ⟨net, member, covers⟩ | ⟨rfl, covers⟩ | before
        · exact .inl ⟨net, List.mem_cons_of_mem _ member, covers⟩
        · exact .inl ⟨first, List.mem_cons_self, covers⟩
        · exact .inr before
      · intro held
        rcases held with ⟨net, member, covers⟩ | before
        · rcases List.mem_cons.mp member with same | later
          · cases same
            exact .inr (.inl ⟨rfl, covers⟩)
          · exact .inl ⟨net, later, covers⟩
        · exact .inr (.inr before)

theorem contains_insertAny_perm {nets others : List AnyNet} (same : nets.Perm others)
    (tries : TriePair) (ip : Address) (isV6 : Bool) :
    (nets.foldl TriePair.insert tries).contains ip isV6 =
      (others.foldl TriePair.insert tries).contains ip isV6 := by
  apply Bool.eq_iff_iff.mpr
  rw [contains_insertAny, contains_insertAny]
  simp only [same.mem_iff]

end Tries

section Verdicts

def Trie.ofNets {isV6 : Bool} (nets : List (Net isV6)) : Trie := nets.foldl Trie.insertNet .empty

theorem contains_ofNets {isV6 : Bool} (nets : List (Net isV6)) (ip : Address) :
    (Trie.ofNets nets).contains ip.val (maxBits isV6) = true ↔ ∃ net ∈ nets, net.Covers ip := by
  have nothing : Trie.empty.contains ip.val (maxBits isV6) = false :=
    PrefixTrie.contains_fresh _
  rw [Trie.ofNets, contains_insertNets, nothing, or_iff_left (nomatch ·)]

theorem CidrSet.contains_foldl (set : CidrSet) (nets : List AnyNet) (ip : Address)
    (isV6 : Bool) :
    (nets.foldl CidrSet.add set).contains ip isV6 =
      (nets.foldl TriePair.insert set.tries).contains ip isV6 := by
  induction nets generalizing set with
  | nil => rfl
  | cons net nets ih => exact ih (set.add net)

/-- A trie decides by the bits, as a rule's matcher does, and the order of a list is not
seen. -/
theorem trie_verdicts :
    (∀ (isV6 : Bool) (nets : List (Net isV6)) (ip : Address),
      ((Trie.ofNets nets).contains ip.val (maxBits isV6) = true ↔ ∃ net ∈ nets, net.Covers ip) ∧
        (Trie.ofNets nets).contains ip.val (maxBits isV6) =
          (matcherOf (nets.map (⟨isV6, ·⟩))).matches ip.val isV6) ∧
      (∀ (geo : GeoIp) (home homeOther domestic domesticOther : List AnyNet),
        home.Perm homeOther → domestic.Perm domesticOther → ∀ (ip : Address) (isV6 : Bool),
          ((geo.setHomeNets home).loadCidrs domestic).classify ip isV6 =
            ((geo.setHomeNets homeOther).loadCidrs domesticOther).classify ip isV6) ∧
      ∀ (set : CidrSet) (nets others : List AnyNet), nets.Perm others →
        ∀ (ip : Address) (isV6 : Bool), (nets.foldl CidrSet.add set).contains ip isV6 =
          (others.foldl CidrSet.add set).contains ip isV6 := by
  refine ⟨fun isV6 nets ip => ⟨contains_ofNets nets ip, ?_⟩, ?_, ?_⟩
  · apply Bool.eq_iff_iff.mpr
    rw [contains_ofNets, matcherOf_matches_iff]
    constructor
    · intro ⟨net, member, covers⟩
      exact ⟨net, List.mem_map_of_mem member, covers⟩
    · intro ⟨net, mapped, covers⟩
      obtain ⟨source, member, same⟩ := List.mem_map.mp mapped
      cases same
      exact ⟨_, member, covers⟩
  · intro geo home homeOther domestic domesticOther sameHome sameDomestic ip isV6
    simp only [GeoIp.classify, GeoIp.loadCidrs, GeoIp.setHomeNets,
      contains_insertAny_perm sameHome, contains_insertAny_perm sameDomestic]
    rfl
  · intro set nets others same ip isV6
    rw [CidrSet.contains_foldl, CidrSet.contains_foldl, contains_insertAny_perm same]

theorem trie_verdicts_sample :
    ∃ (wide narrow : AnyNet), wide ≠ narrow ∧ ∀ (geo : GeoIp) (ip : Address) (isV6 : Bool),
      ((geo.setHomeNets []).loadCidrs [wide, narrow]).classify ip isV6 =
        ((geo.setHomeNets []).loadCidrs [narrow, wide]).classify ip isV6 :=
  ⟨⟨false, ⟨List.replicate 16 10, rfl⟩, 8, by decide⟩,
    ⟨false, ⟨List.replicate 16 10, rfl⟩, 25, by decide⟩, by simp,
    fun geo => trie_verdicts.2.1 geo [] [] _ _ (.refl _) (.swap _ _ _)⟩

end Verdicts

end Idsm.EthProbe
