import Idsm.EthProbe.Bytes
import Idsm.EthProbe.Tls

/-! ClientHello messages, their encoding and their reference fingerprint, against what the
probe reads of the bytes. -/

set_option autoImplicit false

namespace Idsm.EthProbe.Tls

section Numbers

/-- The reserved values `0x0A0A`, `0x1A1A`, ..., `0xFAFA`. -/
def greaseValues : List UInt16 := (List.range 16).map fun n => UInt16.ofNat (0x0A0A + n * 0x1010)

theorem isGrease_iff {v : UInt16} : isGrease v = true ↔ v ∈ greaseValues := by
  have bound := v.toNat_lt
  have masked : v &&& 0x0F0F = 0x0A0A ↔ v.toNat % 16 = 10 ∧ v.toNat / 256 % 16 = 10 := by
    have low : (v.toNat &&& 0x0F0F) % 2 ^ 8 = v.toNat % 16 := by
      rw [Nat.and_mod_two_pow, show 0x0F0F % 2 ^ 8 = 2 ^ 4 - 1 from rfl,
        Nat.and_two_pow_sub_one_eq_mod]
      omega
    have high : (v.toNat &&& 0x0F0F) / 2 ^ 8 = v.toNat / 256 % 16 := by
      rw [Nat.and_div_two_pow, show 0x0F0F / 2 ^ 8 = 2 ^ 4 - 1 from rfl,
        Nat.and_two_pow_sub_one_eq_mod]
    rw [← UInt16.toNat_inj, UInt16.toNat_and]
    simp only [UInt16.reduceToNat]
    omega
  have bytes : v >>> 8 = v &&& 0x00FF ↔ v.toNat / 256 = v.toNat % 256 := by
    rw [← UInt16.toNat_inj, UInt16.toNat_and, UInt16.toNat_shiftRight]
    simp only [UInt16.reduceToNat, show 8 % 16 = 8 from rfl, Nat.shiftRight_eq_div_pow,
      show 255 = 2 ^ 8 - 1 from rfl, Nat.and_two_pow_sub_one_eq_mod]
  rw [isGrease, Bool.and_eq_true, beq_iff_eq, beq_iff_eq, masked, bytes, greaseValues,
    List.mem_map]
  constructor
  · intro ⟨⟨low, high⟩, same⟩
    refine ⟨v.toNat % 256 / 16, List.mem_range.mpr (by omega), ?_⟩
    rw [← UInt16.toNat_inj, UInt16.toNat_ofNat']
    omega
  · intro ⟨n, small, value⟩
    have few := List.mem_range.mp small
    have number := congrArg UInt16.toNat value
    rw [UInt16.toNat_ofNat', Nat.mod_eq_of_lt (by omega)] at number
    have bytes : v.toNat = 256 * (10 + 16 * n) + (10 + 16 * n) := by omega
    omega

/-- The numbers of a list that are no GREASE. -/
def ungreased (values : List UInt16) : List UInt16 := values.filter (· ∉ greaseValues)

/-- Numbers in decimal digits, joined by dashes. -/
def dashed (values : List UInt16) : String :=
  "-".intercalate (values.map fun v => toString v.toNat)

/-- The numbers of a list, written one by one. -/
def appendAll (ss : String) (first : Bool) : List UInt16 → String × Bool
  | [] => (ss, first)
  | v :: rest => appendAll (appendU16 ss v first).1 (appendU16 ss v first).2 rest

theorem appendAll_append (ss : String) (first : Bool) (values others : List UInt16) :
    appendAll ss first (values ++ others) =
      appendAll (appendAll ss first values).1 (appendAll ss first values).2 others := by
  induction values generalizing ss first with
  | nil => rfl
  | cons v rest ih => exact ih _ _

private theorem appendAll_later (ss : String) (v : UInt16) (rest : List UInt16) :
    appendAll (ss ++ toString v.toNat) false rest = (ss ++ dashed (v :: rest), false) := by
  induction rest generalizing ss v with
  | nil => simp [appendAll, dashed]
  | cons next rest ih =>
      rw [appendAll, appendU16, ih]
      simp [dashed, String.append_assoc]

theorem appendAll_first (ss : String) (values : List UInt16) :
    (appendAll ss true values).1 = ss ++ dashed values := by
  cases values with
  | nil => simp [appendAll, dashed]
  | cons v rest =>
      rw [appendAll]
      exact congrArg Prod.fst (appendAll_later ss v rest)

end Numbers

section Messages

def vector8 (data : List UInt8) : List UInt8 := UInt8.ofNat data.length :: data

def vector16 (data : List UInt8) : List UInt8 := be16 (UInt16.ofNat data.length) ++ data

inductive Extension where
  | serverName (host : List UInt8)
  | supportedGroups (groups : List UInt16)
  | ecPointFormats (formats : List UInt8)
  | other (etype : UInt16) (data : List UInt8)
  deriving DecidableEq, Repr

namespace Extension

def etype : Extension → UInt16
  | serverName _ => 0x0000
  | supportedGroups _ => 0x000A
  | ecPointFormats _ => 0x000B
  | other etype _ => etype

/-- A list of one host name; a list of groups; a list of formats. -/
def data : Extension → List UInt8
  | serverName host => vector16 (0 :: vector16 host)
  | supportedGroups groups => vector16 (groups.flatMap be16)
  | ecPointFormats formats => vector8 formats
  | other _ data => data

def encode (extension : Extension) : List UInt8 := be16 extension.etype ++ vector16 extension.data

def host? : Extension → Option (List UInt8)
  | serverName host => some host
  | _ => none

def groups : Extension → List UInt16
  | supportedGroups groups => groups
  | _ => []

def formats : Extension → List UInt16
  | ecPointFormats formats => formats.map UInt8.toUInt16
  | _ => []

/-- The lengths fit in their fields, and only the named extensions have their types. -/
def Fits : Extension → Prop
  | ecPointFormats formats => formats.length < 256
  | other etype _ => etype ≠ 0x0000 ∧ etype ≠ 0x000A ∧ etype ≠ 0x000B
  | _ => True

end Extension

/-- A ClientHello and the version of its record. -/
structure ClientHello where
  recordMinor : UInt8
  version : UInt16
  random : List UInt8
  sessionId : List UInt8
  ciphers : List UInt16
  compressions : List UInt8
  extensions : Option (List Extension)
  deriving DecidableEq, Repr

namespace ClientHello

variable (hello : ClientHello)

def extensionList : List Extension := hello.extensions.getD []

def extensionBlock : List UInt8 :=
  match hello.extensions with
  | none => []
  | some extensions => vector16 (extensions.flatMap Extension.encode)

def body : List UInt8 :=
  be16 hello.version ++ hello.random ++ vector8 hello.sessionId ++
    vector16 (hello.ciphers.flatMap be16) ++ vector8 hello.compressions ++ hello.extensionBlock

/-- The handshake message with its type and its length of three bytes. -/
def handshake : List UInt8 :=
  [1, UInt8.ofNat (hello.body.length / 65536)] ++ vector16 hello.body

def encode : List UInt8 := [22, 3, hello.recordMinor] ++ vector16 hello.handshake

/-- The message fits in one record; it has at most one host name. -/
structure WellFormed : Prop where
  minor : hello.recordMinor ≤ 4
  random : hello.random.length = 32
  sessionId : hello.sessionId.length < 256
  compressions : hello.compressions.length < 256
  extensions : ∀ extension ∈ hello.extensionList, extension.Fits
  oneHost : (hello.extensionList.filterMap Extension.host?).length ≤ 1
  record : hello.handshake.length < 65536

def host : List UInt8 := ((hello.extensionList.filterMap Extension.host?).head?).getD []

/-- The version, then the ciphers, extensions, groups and formats in order, without GREASE. -/
def referenceJa3 : String :=
  ",".intercalate [toString hello.version.toNat, dashed (ungreased hello.ciphers),
    dashed (ungreased (hello.extensionList.map Extension.etype)),
    dashed (ungreased (hello.extensionList.flatMap Extension.groups)),
    dashed (hello.extensionList.flatMap Extension.formats)]

def fingerprint (md5Hex : String → String) : TlsClientHello where
  valid := true
  recordVersion := 0x0300 ||| hello.recordMinor.toUInt16
  clientVersion := hello.version
  sni := hello.host
  ja3 := hello.referenceJa3
  ja3Hash := md5Hex hello.referenceJa3
  consumed := hello.encode.length
  error := .ok

end ClientHello

end Messages

section Loops

private theorem length_words (words : List UInt16) :
    (words.flatMap be16).length = 2 * words.length := by
  induction words with
  | nil => rfl
  | cons v rest ih =>
      rw [List.flatMap_cons, List.length_append, ih]
      simp only [be16, List.length_cons, List.length_nil]
      omega

/-- From behind the words that are done, the loop writes the other words. -/
theorem appendWords_eq {len : UInt16} {inside : UInt16 → Bool} (words done : List UInt16)
    (rest : List UInt8) (i : UInt16) (ss : String) (first : Bool)
    (length : len.toNat = 2 * (done.length + words.length)) (index : i.toNat = 2 * done.length)
    (within : ∀ j : UInt16, j.toNat + 1 < len.toNat → inside j = true) :
    appendWords ((done ++ words).flatMap be16 ++ rest) len inside i ss first =
      appendAll ss first (ungreased words) := by
  induction words generalizing done i ss first with
  | nil =>
      have ended : ¬ (i.toNat + 1 < len.toNat ∧ inside i = true) := by
        rw [length, index, List.length_nil]
        omega
      rw [appendWords, if_neg ended]
      rfl
  | cons v words ih =>
      have before : i.toNat + 1 < len.toNat := by
        rw [length, index, List.length_cons]
        omega
      have read : rd16 ((done ++ v :: words).flatMap be16 ++ rest) i.toNat = v := by
        rw [index, ← length_words done, List.flatMap_append, List.flatMap_cons, List.append_assoc,
          List.append_assoc, ← List.append_assoc]
        exact rd16_be16 _ _ v
      have next : (i + 2).toNat = 2 * (done ++ [v]).length := by
        have bound := len.toNat_lt
        rw [UInt16.toNat_add, index, List.length_append]
        simp only [UInt16.reduceToNat, List.length_singleton]
        omega
      have whole : len.toNat = 2 * ((done ++ [v]).length + words.length) := by
        rw [length, List.length_append, List.length_singleton, List.length_cons]
        omega
      have moved := fun ss first => ih (done ++ [v]) (i + 2) ss first whole next
      simp only [List.append_assoc, List.singleton_append] at moved
      rw [appendWords, if_pos ⟨before, within i before⟩, read]
      by_cases grease : isGrease v = true
      · have dropped : ungreased (v :: words) = ungreased words := by
          simp [ungreased, isGrease_iff.1 grease]
        simp only [grease, if_true, moved, dropped]
      · have kept : ungreased (v :: words) = v :: ungreased words := by
          simp [ungreased, mt isGrease_iff.2 grease]
        simp only [grease, moved, kept]
        rfl

theorem appendCiphers_eq (ciphers : List UInt16) (rest : List UInt8) (ja3 : String)
    (fits : 2 * ciphers.length < 65536) :
    appendCiphers (ciphers.flatMap be16 ++ rest) (UInt16.ofNat (2 * ciphers.length)) ja3 =
      ja3 ++ dashed (ungreased ciphers) := by
  have length : (UInt16.ofNat (2 * ciphers.length)).toNat =
      2 * (([] : List UInt16).length + ciphers.length) := by
    rw [UInt16.toNat_ofNat_of_lt' fits, List.length_nil, Nat.zero_add]
  rw [appendCiphers, ← appendAll_first]
  exact congrArg Prod.fst (appendWords_eq ciphers [] rest 0 ja3 true length rfl fun _ _ => rfl)

theorem appendGroups_eq {groups : List UInt16} {elen : UInt16} (rest : List UInt8) (cSs : String)
    (cFirst : Bool) (length : elen.toNat = 2 + 2 * groups.length) :
    appendGroups (vector16 (groups.flatMap be16) ++ rest) elen cSs cFirst =
      appendAll cSs cFirst (ungreased groups) := by
  have bound := elen.toNat_lt
  have read : rd16 (vector16 (groups.flatMap be16) ++ rest) 0 =
      UInt16.ofNat (2 * groups.length) := by
    rw [vector16, length_words]
    exact rd16_be16 [] _ _
  have glen : (UInt16.ofNat (2 * groups.length)).toNat = 2 * groups.length :=
    UInt16.toNat_ofNat_of_lt' (show 2 * groups.length < 65536 by omega)
  rw [appendGroups, read]
  refine appendWords_eq groups [] rest 0 cSs cFirst ?_ rfl fun j before => ?_
  · rw [glen, List.length_nil, Nat.zero_add]
  · rw [glen] at before
    exact decide_eq_true (by omega)

/-- From behind the formats that are done, the loop writes the other formats. -/
theorem appendFormats_eq {elen : UInt16} (formats done : List UInt8) (rest : List UInt8) (i : UInt8)
    (fSs : String) (fFirst : Bool) (few : done.length + formats.length < 256)
    (length : elen.toNat = 1 + (done.length + formats.length)) (index : i.toNat = done.length) :
    appendFormats (vector8 (done ++ formats) ++ rest) elen i fSs fFirst =
      appendAll fSs fFirst (formats.map UInt8.toUInt16) := by
  have flen : (byteAt (vector8 (done ++ formats) ++ rest) 0).toNat =
      done.length + formats.length := by
    rw [← List.length_append] at few ⊢
    exact UInt8.toNat_ofNat_of_lt' few
  induction formats generalizing done i fSs fFirst with
  | nil =>
      rw [appendFormats, if_neg fun inside => by
        rw [flen, index, List.length_nil] at inside
        omega]
      rfl
  | cons format formats ih =>
      have inside : i.toNat < (byteAt (vector8 (done ++ format :: formats) ++ rest) 0).toNat ∧
          1 + i.toNat < elen.toNat := by
        rw [flen, length, index, List.length_cons]
        omega
      have read : byteAt (vector8 (done ++ format :: formats) ++ rest) (1 + i.toNat) = format := by
        have split := byteAt_front (UInt8.ofNat (done ++ format :: formats).length :: done)
          (formats ++ rest) format
        rw [index, Nat.add_comm]
        simpa only [vector8, List.cons_append, List.append_assoc, List.length_cons] using split
      have again : (done ++ [format]).length + formats.length =
          done.length + (format :: formats).length := by
        rw [List.length_append, List.length_singleton, List.length_cons]
        omega
      have next : (i + 1).toNat = (done ++ [format]).length := by
        rw [UInt8.toNat_add, index, List.length_append]
        simp only [UInt8.reduceToNat, List.length_singleton]
        rw [List.length_cons] at few
        omega
      have moved := fun fSs fFirst => ih (done ++ [format]) (i + 1) fSs fFirst (again ▸ few)
        (again ▸ length) next
      simp only [List.append_assoc, List.singleton_append, again] at moved
      rw [appendFormats, if_pos inside, read]
      exact moved _ _ flen

end Loops

section Reading

variable {extension : Extension} {rest : List UInt8} {texts : ExtensionTexts}

/-- What one extension adds to the texts. -/
def Extension.read (extension : Extension) (texts : ExtensionTexts) : ExtensionTexts where
  sni := extension.host?.getD texts.sni
  exts := (appendAll texts.exts texts.eFirst (ungreased [extension.etype])).1
  eFirst := (appendAll texts.exts texts.eFirst (ungreased [extension.etype])).2
  curves := (appendAll texts.curves texts.cFirst (ungreased extension.groups)).1
  cFirst := (appendAll texts.curves texts.cFirst (ungreased extension.groups)).2
  formats := (appendAll texts.formats texts.fFirst extension.formats).1
  fFirst := (appendAll texts.formats texts.fFirst extension.formats).2

private theorem appendAll_one (ss : String) (v : UInt16) (first : Bool) :
    (if isGrease v then (ss, first) else appendU16 ss v first) =
      appendAll ss first (ungreased [v]) := by
  by_cases grease : isGrease v = true
  · simp [grease, ungreased, isGrease_iff.1 grease, appendAll]
  · simp [grease, ungreased, mt isGrease_iff.2 grease, appendAll]

private theorem length_vector16 (data : List UInt8) : (vector16 data).length = 2 + data.length := by
  rw [vector16, List.length_append]
  rfl

private theorem serverName_encode {host : List UInt8} (sni : List UInt8)
    (fits : 5 + host.length < 65536) :
    serverName (vector16 (0 :: vector16 host) ++ rest) (UInt16.ofNat (5 + host.length)) sni =
      host := by
  have small : ∀ n, n < 65536 → (UInt16.ofNat n).toNat = n := fun n => UInt16.toNat_ofNat_of_lt'
  have laid : vector16 (0 :: vector16 host) ++ rest =
      be16 (UInt16.ofNat (3 + host.length)) ++
        0 :: (be16 (UInt16.ofNat host.length) ++ (host ++ rest)) := by
    rw [vector16, List.length_cons, length_vector16, vector16, List.append_assoc, List.cons_append,
      List.append_assoc, show 2 + host.length + 1 = 3 + host.length by omega]
  have list := rd16_be16 [] (0 :: (be16 (UInt16.ofNat host.length) ++ (host ++ rest)))
    (UInt16.ofNat (3 + host.length))
  have type := byteAt_front (be16 (UInt16.ofNat (3 + host.length)))
    (be16 (UInt16.ofNat host.length) ++ (host ++ rest)) 0
  have name := rd16_be16 (be16 (UInt16.ofNat (3 + host.length)) ++ [0]) (host ++ rest)
    (UInt16.ofNat host.length)
  have value : (host ++ rest).take host.length = host := List.take_left
  rw [List.nil_append, List.length_nil] at list
  rw [List.append_assoc, List.append_assoc, List.singleton_append] at name
  change rd16 _ 3 = _ at name
  change byteAt _ 2 = _ at type
  rw [laid, serverName, list, type, name, small _ fits, small _ (by omega), small _ (by omega),
    if_pos ⟨by omega, rfl⟩, if_pos (Nat.le_refl _)]
  exact value

theorem readExtension_encode (fits : extension.Fits) (short : extension.data.length < 65536) :
    readExtension extension.etype (UInt16.ofNat extension.data.length) (extension.data ++ rest)
      texts = extension.read texts := by
  have elen : (UInt16.ofNat extension.data.length).toNat = extension.data.length :=
    UInt16.toNat_ofNat_of_lt' short
  rw [readExtension, appendAll_one, elen]
  cases appended : appendAll texts.exts texts.eFirst (ungreased [extension.etype]) with
  | mk exts eFirst =>
      cases extension with
      | serverName host =>
          have length : (Extension.serverName host).data.length = 5 + host.length := by
            rw [Extension.data, length_vector16, List.length_cons, length_vector16]
            omega
          have name := @serverName_encode rest host texts.sni (length ▸ short)
          dsimp only
          rw [if_pos ⟨rfl, by omega⟩, Extension.read, appended, length, Extension.data, name]
          rfl
      | supportedGroups groups =>
          have length : (Extension.supportedGroups groups).data.length = 2 + 2 * groups.length := by
            rw [Extension.data, length_vector16, length_words]
          have written := @appendGroups_eq groups (UInt16.ofNat (2 + 2 * groups.length)) rest
            texts.curves texts.cFirst (by rw [← length, elen])
          dsimp only
          rw [if_neg (by simp [Extension.etype]), if_pos ⟨rfl, by omega⟩, Extension.read, appended,
            length, Extension.data, written]
          rfl
      | ecPointFormats formats =>
          have length : (Extension.ecPointFormats formats).data.length = 1 + formats.length :=
            Nat.add_comm _ _
          have written := @appendFormats_eq (UInt16.ofNat (1 + formats.length)) formats [] rest 0
            texts.formats texts.fFirst (by simpa [Extension.Fits] using fits)
            (by rw [List.length_nil, Nat.zero_add, ← length, elen]) rfl
          dsimp only
          rw [if_neg (by simp [Extension.etype]), if_neg (by simp [Extension.etype]),
            if_pos ⟨rfl, by omega⟩, Extension.read, appended, length, Extension.data]
          rw [List.nil_append] at written
          rw [written]
          rfl
      | other etype data =>
          obtain ⟨noName, noGroups, noFormats⟩ := fits
          dsimp only
          rw [if_neg fun named => noName named.1, if_neg fun named => noGroups named.1,
            if_neg fun named => noFormats named.1, Extension.read, appended]
          rfl

/-- From behind the extensions that are done, the loop reads the other extensions. -/
theorem readExtensions_encode (extensions : List Extension) (front rest : List UInt8)
    (texts : ExtensionTexts) (fits : ∀ extension ∈ extensions, extension.Fits)
    (short : (extensions.flatMap Extension.encode).length < 65536) :
    readExtensions (front ++ (extensions.flatMap Extension.encode ++ rest))
        (front.length + (extensions.flatMap Extension.encode).length) front.length texts =
      .ok (extensions.foldl (fun texts extension => extension.read texts) texts) := by
  induction extensions generalizing front texts with
  | nil =>
      rw [readExtensions, if_neg (by rw [List.flatMap_nil, List.length_nil]; omega)]
      rfl
  | cons extension extensions ih =>
      have block : extension.encode.length = 4 + extension.data.length := by
        rw [Extension.encode, List.length_append, length_vector16, ← Nat.add_assoc]
        rfl
      have total : ((extension :: extensions).flatMap Extension.encode).length =
          4 + extension.data.length + (extensions.flatMap Extension.encode).length := by
        rw [List.flatMap_cons, List.length_append, block]
      have elen : (UInt16.ofNat extension.data.length).toNat = extension.data.length :=
        UInt16.toNat_ofNat_of_lt' (show extension.data.length < 65536 by omega)
      have behindType : (front ++ be16 extension.etype).length = front.length + 2 := by
        rw [List.length_append]
        rfl
      have laid : front ++ ((extension :: extensions).flatMap Extension.encode ++ rest) =
          front ++ be16 extension.etype ++ be16 (UInt16.ofNat extension.data.length) ++
            (extension.data ++ (extensions.flatMap Extension.encode ++ rest)) := by
        simp only [List.flatMap_cons, Extension.encode, vector16, List.append_assoc]
      have type : rd16 (front ++ ((extension :: extensions).flatMap Extension.encode ++ rest))
          front.length = extension.etype := by
        rw [laid, List.append_assoc]
        exact rd16_be16 front _ _
      have size : rd16 (front ++ ((extension :: extensions).flatMap Extension.encode ++ rest))
          (front.length + 2) = UInt16.ofNat extension.data.length := by
        rw [laid, ← behindType]
        exact rd16_be16 _ _ _
      have carried : (front ++ ((extension :: extensions).flatMap Extension.encode ++ rest)).drop
          (front.length + 4) =
            extension.data ++ (extensions.flatMap Extension.encode ++ rest) := by
        rw [laid]
        exact List.drop_left' (by simp [be16])
      have moved := ih (front ++ extension.encode) (extension.read texts)
        (fun other listed => fits other (List.mem_cons_of_mem _ listed)) (by omega)
      rw [List.append_assoc, List.length_append, block, ← List.append_assoc extension.encode,
        ← List.flatMap_cons, Nat.add_assoc] at moved
      rw [readExtensions, if_pos (by omega), type, size]
      dsimp only
      rw [elen, if_neg (by omega), carried,
        readExtension_encode (fits extension List.mem_cons_self) (by omega), total]
      exact moved

theorem foldl_read_exts (extensions : List Extension) (texts : ExtensionTexts) :
    ((extensions.foldl (fun texts extension => extension.read texts) texts).exts,
        (extensions.foldl (fun texts extension => extension.read texts) texts).eFirst) =
      appendAll texts.exts texts.eFirst (ungreased (extensions.map Extension.etype)) := by
  induction extensions generalizing texts with
  | nil => rfl
  | cons extension extensions ih =>
      have split : ungreased ((extension :: extensions).map Extension.etype) =
          ungreased [extension.etype] ++ ungreased (extensions.map Extension.etype) :=
        List.filter_append [extension.etype] _
      rw [split, appendAll_append]
      exact ih (extension.read texts)

theorem foldl_read_curves (extensions : List Extension) (texts : ExtensionTexts) :
    ((extensions.foldl (fun texts extension => extension.read texts) texts).curves,
        (extensions.foldl (fun texts extension => extension.read texts) texts).cFirst) =
      appendAll texts.curves texts.cFirst (ungreased (extensions.flatMap Extension.groups)) := by
  induction extensions generalizing texts with
  | nil => rfl
  | cons extension extensions ih =>
      have split : ungreased ((extension :: extensions).flatMap Extension.groups) =
          ungreased extension.groups ++ ungreased (extensions.flatMap Extension.groups) :=
        List.filter_append extension.groups _
      rw [split, appendAll_append]
      exact ih (extension.read texts)

theorem foldl_read_formats (extensions : List Extension) (texts : ExtensionTexts) :
    ((extensions.foldl (fun texts extension => extension.read texts) texts).formats,
        (extensions.foldl (fun texts extension => extension.read texts) texts).fFirst) =
      appendAll texts.formats texts.fFirst (extensions.flatMap Extension.formats) := by
  induction extensions generalizing texts with
  | nil => rfl
  | cons extension extensions ih =>
      rw [List.flatMap_cons, appendAll_append]
      exact ih (extension.read texts)

/-- The last name wins; with one name it is the name. -/
theorem foldl_read_sni (extensions : List Extension) (texts : ExtensionTexts) :
    (extensions.foldl (fun texts extension => extension.read texts) texts).sni =
      (extensions.filterMap Extension.host?).getLast?.getD texts.sni := by
  induction extensions generalizing texts with
  | nil => rfl
  | cons extension extensions ih =>
      rw [List.foldl_cons, ih, List.filterMap_cons]
      cases named : extension.host? with
      | none => simp only [Extension.read, named, Option.getD_none]
      | some host =>
          simp only [Extension.read, named, Option.getD_some, List.getLast?_cons]

end Reading

section Parsing

variable {hello : ClientHello} (md5Hex : String → String) (rest : List UInt8)

private theorem length_vector8 (data : List UInt8) : (vector8 data).length = 1 + data.length :=
  Nat.add_comm _ _

theorem readExtensionBlock_encode (wellFormed : hello.WellFormed)
    (short : hello.extensionBlock.length < 65536) (ja3 : String) (h : TlsClientHello) :
    readExtensionBlock md5Hex (hello.extensionBlock ++ rest) hello.extensionBlock.length ja3 h =
      let text := ja3 ++ dashed (ungreased (hello.extensionList.map Extension.etype)) ++ "," ++
        dashed (ungreased (hello.extensionList.flatMap Extension.groups)) ++ "," ++
          dashed (hello.extensionList.flatMap Extension.formats)
      { h with sni := hello.host, ja3 := text, ja3Hash := md5Hex text, valid := true } := by
  have fits := wellFormed.extensions
  have oneHost := wellFormed.oneHost
  unfold ClientHello.extensionBlock at short ⊢
  rw [ClientHello.host, ClientHello.extensionList]
  rw [ClientHello.extensionList] at fits oneHost
  cases present : hello.extensions with
  | none => rfl
  | some extensions =>
      rw [present] at short fits oneHost
      dsimp only at short ⊢
      rw [Option.getD_some] at fits oneHost ⊢
      rw [length_vector16] at short ⊢
      have total : rd16 (vector16 (extensions.flatMap Extension.encode) ++ rest) 0 =
          UInt16.ofNat (extensions.flatMap Extension.encode).length := rd16_be16 [] _ _
      have size : (UInt16.ofNat (extensions.flatMap Extension.encode).length).toNat =
          (extensions.flatMap Extension.encode).length :=
        UInt16.toNat_ofNat_of_lt' (show _ < 65536 by omega)
      have carried : (vector16 (extensions.flatMap Extension.encode) ++ rest).drop 2 =
          extensions.flatMap Extension.encode ++ rest := rfl
      have read := readExtensions_encode extensions [] rest .empty fits (by omega)
      rw [List.nil_append, List.length_nil, Nat.zero_add] at read
      have exts := congrArg Prod.fst (foldl_read_exts extensions .empty)
      have curves := congrArg Prod.fst (foldl_read_curves extensions .empty)
      have formats := congrArg Prod.fst (foldl_read_formats extensions .empty)
      have sni := foldl_read_sni extensions .empty
      have last : (extensions.filterMap Extension.host?).getLast? =
          (extensions.filterMap Extension.host?).head? := by
        cases names : extensions.filterMap Extension.host? with
        | nil => rfl
        | cons name others =>
            rw [names, List.length_cons] at oneHost
            rw [List.length_eq_zero_iff.mp (show others.length = 0 by omega)]
            rfl
      rw [readExtensionBlock, if_pos (by omega), total, size, if_neg (by omega), carried, read]
      dsimp only at exts curves formats ⊢
      rw [exts, curves, formats, sni, last]
      simp only [ExtensionTexts.empty, appendAll_first, String.empty_append]

private theorem byteAt_vector8 {data : List UInt8} (rest : List UInt8) (short : data.length < 256) :
    (byteAt (vector8 data ++ rest) 0).toNat = data.length :=
  UInt8.toNat_ofNat_of_lt' short

private theorem rd16_vector16 {data : List UInt8} (rest : List UInt8)
    (short : data.length < 65536) : (rd16 (vector16 data ++ rest) 0).toNat = data.length := by
  have read : rd16 (vector16 data ++ rest) 0 = UInt16.ofNat data.length := by
    rw [vector16, List.append_assoc]
    exact rd16_be16 [] _ _
  rw [read]
  exact UInt16.toNat_ofNat_of_lt' short

theorem readHandshake_encode (wellFormed : hello.WellFormed) (h : TlsClientHello) :
    readHandshake md5Hex (hello.body ++ rest) hello.body.length h =
      { h with
        clientVersion := hello.version
        sni := hello.host
        ja3 := hello.referenceJa3
        ja3Hash := md5Hex hello.referenceJa3
        valid := true } := by
  have short := wellFormed.record
  rw [ClientHello.handshake, List.length_append, length_vector16] at short
  have laid : hello.body ++ rest = (be16 hello.version ++ hello.random) ++
      (vector8 hello.sessionId ++ (vector16 (hello.ciphers.flatMap be16) ++
        (vector8 hello.compressions ++ (hello.extensionBlock ++ rest)))) := by
    simp only [ClientHello.body, List.append_assoc]
  have length : hello.body.length = 34 + (1 + hello.sessionId.length +
      (2 + (hello.ciphers.flatMap be16).length +
        (1 + hello.compressions.length + hello.extensionBlock.length))) := by
    simp only [ClientHello.body, List.length_append, length_vector8, length_vector16,
      wellFormed.random]
    simp only [be16, List.length_cons, List.length_nil]
    omega
  have version : rd16 (hello.body ++ rest) 0 = hello.version := by
    rw [laid, List.append_assoc]
    exact rd16_be16 [] _ _
  have afterRandom : (hello.body ++ rest).drop 34 =
      vector8 hello.sessionId ++ (vector16 (hello.ciphers.flatMap be16) ++
        (vector8 hello.compressions ++ (hello.extensionBlock ++ rest))) := by
    rw [laid]
    refine List.drop_left' ?_
    rw [List.length_append, wellFormed.random]
    rfl
  have afterVector8 : ∀ data rest : List UInt8, ((vector8 data ++ rest).drop 1).drop data.length =
      rest := fun data rest => List.drop_left
  have afterLength : ∀ data rest : List UInt8, (vector16 data ++ rest).drop 2 = data ++ rest :=
    fun _ _ => rfl
  have even := length_words hello.ciphers
  have ciphers := fun ja3 => appendCiphers_eq hello.ciphers
    (vector8 hello.compressions ++ (hello.extensionBlock ++ rest)) ja3 (by omega)
  have csLen : rd16 (vector16 (hello.ciphers.flatMap be16) ++
      (vector8 hello.compressions ++ (hello.extensionBlock ++ rest))) 0 =
        UInt16.ofNat (2 * hello.ciphers.length) := by
    rw [← even, vector16, List.append_assoc]
    exact rd16_be16 [] _ _
  have csSize : (UInt16.ofNat (2 * hello.ciphers.length)).toNat = 2 * hello.ciphers.length :=
    UInt16.toNat_ofNat_of_lt' (show _ < 65536 by omega)
  have afterCiphers : ((hello.ciphers.flatMap be16) ++ (vector8 hello.compressions ++
      (hello.extensionBlock ++ rest))).drop (2 * hello.ciphers.length) =
        vector8 hello.compressions ++ (hello.extensionBlock ++ rest) := List.drop_left' even
  rw [readHandshake, if_neg (by omega)]
  dsimp only
  rw [version, afterRandom, byteAt_vector8 _ wellFormed.sessionId, afterVector8, csLen, csSize,
    afterLength, ciphers, afterCiphers, byteAt_vector8 _ wellFormed.compressions, afterVector8,
    if_neg (by omega), if_neg (by omega), if_neg (by omega), if_neg (by omega), if_neg (by omega),
    if_neg (by omega), show hello.body.length - 34 - 1 - hello.sessionId.length - 2 -
      2 * hello.ciphers.length - 1 - hello.compressions.length = hello.extensionBlock.length by omega,
    readExtensionBlock_encode md5Hex rest wellFormed (by omega)]
  have text : hello.referenceJa3 =
      toString hello.version.toNat ++ "," ++ dashed (ungreased hello.ciphers) ++ "," ++
        dashed (ungreased (hello.extensionList.map Extension.etype)) ++ "," ++
          dashed (ungreased (hello.extensionList.flatMap Extension.groups)) ++ "," ++
            dashed (hello.extensionList.flatMap Extension.formats) := by
    simp only [ClientHello.referenceJa3, String.intercalate_cons_cons,
      String.intercalate_singleton, String.append_assoc]
  rw [text]

/-- The parser undoes the encoding of a well-formed message, whatever bytes follow. -/
theorem parse_encode (wellFormed : hello.WellFormed) :
    parseTlsClientHello md5Hex (hello.encode ++ rest) = hello.fingerprint md5Hex := by
  have short := wellFormed.record
  have body : hello.handshake.length = 4 + hello.body.length := by
    rw [ClientHello.handshake, List.length_append, length_vector16]
    rw [show ([1, UInt8.ofNat (hello.body.length / 65536)] : List UInt8).length = 2 from rfl]
    omega
  have laid : hello.encode ++ rest = 22 :: 3 :: hello.recordMinor ::
      (vector16 hello.handshake ++ rest) := rfl
  have consumed : hello.encode.length = 5 + hello.handshake.length := by
    rw [ClientHello.encode, List.length_append, length_vector16]
    rw [show ([22, 3, hello.recordMinor] : List UInt8).length = 3 from rfl]
    omega
  have length : (hello.encode ++ rest).length = 5 + hello.handshake.length + rest.length := by
    rw [List.length_append, consumed]
  have version : rd16 (hello.encode ++ rest) 1 = 0x0300 ||| hello.recordMinor.toUInt16 := rfl
  have reclen : (rd16 (hello.encode ++ rest) 3).toNat = hello.handshake.length :=
    rd16_vector16 rest short
  have looks : looksLikeTls (hello.encode ++ rest) = true := by
    rw [looksLikeTls, if_neg (by omega), if_neg]
    · exact Bool.and_eq_true_iff.mpr ⟨rfl, decide_eq_true wellFormed.minor⟩
    · rintro (low | high)
      · exact absurd low (show ¬ (22 : UInt8) < 20 by decide)
      · exact absurd high (show ¬ (23 : UInt8) < 22 by decide)
  have type : byteAt (hello.encode ++ rest) 0 = 22 := rfl
  have message : byteAt (hello.encode ++ rest) 5 = 1 := rfl
  have carried : (hello.encode ++ rest).drop 9 = hello.body ++ rest := rfl
  rw [parseTlsClientHello, looks, if_neg (by decide), if_neg (by omega)]
  dsimp only
  rw [if_neg (not_not.mpr type), reclen, if_neg (by omega), if_neg, carried, version,
    show hello.handshake.length - 4 = hello.body.length by omega,
    readHandshake_encode md5Hex rest wellFormed, ClientHello.fingerprint, consumed]
  · rfl
  · rintro (low | other)
    · omega
    · exact other message

end Parsing

section Grease

/-- The second list is the first with further elements at any places; the others are alike. -/
inductive Inserted {α : Type} (extra : α → Prop) (alike : α → α → Prop) :
    List α → List α → Prop where
  | nil : Inserted extra alike [] []
  | keep {first second : α} {rest others : List α} : alike first second →
      Inserted extra alike rest others → Inserted extra alike (first :: rest) (second :: others)
  | insert {added : α} {rest others : List α} : extra added →
      Inserted extra alike rest others → Inserted extra alike rest (added :: others)

theorem Inserted.flatMap_eq {α β : Type} {extra : α → Prop} {alike : α → α → Prop}
    {rest others : List α} (inserted : Inserted extra alike rest others) (read : α → List β)
    (unread : ∀ added, extra added → read added = [])
    (same : ∀ first second, alike first second → read first = read second) :
    others.flatMap read = rest.flatMap read := by
  induction inserted with
  | nil => rfl
  | keep alike _ ih => rw [List.flatMap_cons, List.flatMap_cons, ih, same _ _ alike]
  | insert extra _ ih => rw [List.flatMap_cons, ih, unread _ extra, List.nil_append]

/-- Further values of GREASE. -/
abbrev GreaseInserted : List UInt16 → List UInt16 → Prop := Inserted (· ∈ greaseValues) (· = ·)

/-- An extension of a GREASE type. -/
def Extension.IsGrease (extension : Extension) : Prop :=
  ∃ etype data, extension = .other etype data ∧ etype ∈ greaseValues

/-- Alike but for GREASE among the groups. -/
inductive Extension.Alike : Extension → Extension → Prop where
  | same (extension : Extension) : Alike extension extension
  | groups {groups others : List UInt16} : GreaseInserted groups others →
      Alike (.supportedGroups groups) (.supportedGroups others)

/-- The second message has further GREASE among its ciphers, extensions and groups. -/
structure ClientHello.GreaseInserted (hello other : ClientHello) : Prop where
  version : other.version = hello.version
  ciphers : Tls.GreaseInserted hello.ciphers other.ciphers
  extensions : Inserted Extension.IsGrease Extension.Alike hello.extensionList other.extensionList

private theorem ungreased_flatMap (values : List UInt16) :
    ungreased values = values.flatMap fun v => ungreased [v] := by
  induction values with
  | nil => rfl
  | cons v rest ih =>
      rw [List.flatMap_cons, ← ih]
      exact List.filter_append [v] rest

theorem GreaseInserted.ungreased_eq {values others : List UInt16}
    (inserted : GreaseInserted values others) : ungreased others = ungreased values := by
  rw [ungreased_flatMap, ungreased_flatMap]
  refine inserted.flatMap_eq _ (fun added grease => ?_) fun first second same => by rw [same]
  simp [ungreased, grease]

private theorem ungreased_flatMap_of {α : Type} (list : List α) (read : α → List UInt16) :
    ungreased (list.flatMap read) = list.flatMap fun element => ungreased (read element) :=
  List.filter_flatMap

theorem ClientHello.GreaseInserted.referenceJa3_eq {hello other : ClientHello}
    (inserted : hello.GreaseInserted other) : other.referenceJa3 = hello.referenceJa3 := by
  have types : ungreased (other.extensionList.map Extension.etype) =
      ungreased (hello.extensionList.map Extension.etype) := by
    rw [List.map_eq_flatMap, List.map_eq_flatMap, ungreased_flatMap_of, ungreased_flatMap_of]
    refine inserted.extensions.flatMap_eq _ ?_ ?_
    · rintro _ ⟨etype, data, rfl, grease⟩
      simp [ungreased, Extension.etype, grease]
    · rintro _ _ (_ | _)
      · rfl
      · rfl
  have groups : ungreased (other.extensionList.flatMap Extension.groups) =
      ungreased (hello.extensionList.flatMap Extension.groups) := by
    rw [ungreased_flatMap_of, ungreased_flatMap_of]
    refine inserted.extensions.flatMap_eq _ ?_ ?_
    · rintro _ ⟨etype, data, rfl, grease⟩
      rfl
    · rintro _ _ (_ | more)
      · rfl
      · exact more.ungreased_eq.symm
  have formats : other.extensionList.flatMap Extension.formats =
      hello.extensionList.flatMap Extension.formats := by
    refine inserted.extensions.flatMap_eq _ ?_ ?_
    · rintro _ ⟨etype, data, rfl, grease⟩
      rfl
    · rintro _ _ (_ | _)
      · rfl
      · rfl
  rw [ClientHello.referenceJa3, ClientHello.referenceJa3, inserted.version,
    inserted.ciphers.ungreased_eq, types, groups, formats]

end Grease

/-- A message is read back with its host name and its reference text, which further GREASE does
not change. -/
theorem client_hello_fingerprinted (md5Hex : String → String) :
    (∀ hello : ClientHello, hello.WellFormed → ∀ rest,
      parseTlsClientHello md5Hex (hello.encode ++ rest) = hello.fingerprint md5Hex) ∧
    ∀ hello other : ClientHello, hello.WellFormed → other.WellFormed →
      hello.GreaseInserted other →
        (parseTlsClientHello md5Hex other.encode).ja3 =
          (parseTlsClientHello md5Hex hello.encode).ja3 := by
  refine ⟨fun hello wellFormed rest => parse_encode md5Hex rest wellFormed,
    fun hello other wellFormed otherFormed inserted => ?_⟩
  have first := parse_encode md5Hex [] wellFormed
  have second := parse_encode md5Hex [] otherFormed
  rw [List.append_nil] at first second
  rw [first, second]
  exact inserted.referenceJa3_eq

section Sample

def helloSample (ciphers : List UInt16) : ClientHello where
  recordMinor := 1
  version := 0x0303
  random := List.replicate 32 0
  sessionId := []
  ciphers := ciphers
  compressions := [0]
  extensions := some [.serverName [97], .supportedGroups [29], .ecPointFormats [0]]

theorem wellFormed_helloSample {ciphers : List UInt16}
    (short : (helloSample ciphers).handshake.length < 65536) :
    (helloSample ciphers).WellFormed where
  minor := show (1 : UInt8) ≤ 4 by decide
  random := rfl
  sessionId := show 0 < 256 by decide
  compressions := show 1 < 256 by decide
  extensions extension listed := by
    obtain rfl | rfl | rfl : extension = .serverName [97] ∨ extension = .supportedGroups [29] ∨
        extension = .ecPointFormats [0] := by
      simpa [helloSample, ClientHello.extensionList] using listed
    · trivial
    · trivial
    · exact show 1 < 256 by decide
  oneHost := show 1 ≤ 1 from Nat.le_refl 1
  record := short

/-- The digest of the text of the sample. -/
def md5Sample (text : String) : String :=
  if text = "771,4865,0-10-11,29,0" then "0a7c04e829b4df23863cb5b4875156ed" else ""

theorem client_hello_fingerprinted_sample :
    (parseTlsClientHello md5Sample (helloSample [0x1301]).encode).ja3 =
        (helloSample [0x1301]).referenceJa3 ∧
      (parseTlsClientHello md5Sample (helloSample [0x0A0A, 0x1301]).encode).ja3 =
        (parseTlsClientHello md5Sample (helloSample [0x1301]).encode).ja3 := by
  have plain : (helloSample [0x1301]).WellFormed := wellFormed_helloSample (by decide)
  have greased : (helloSample [0x0A0A, 0x1301]).WellFormed := wellFormed_helloSample (by decide)
  refine ⟨?_, (client_hello_fingerprinted md5Sample).2 _ _ plain greased ⟨rfl, ?_, ?_⟩⟩
  · have read := (client_hello_fingerprinted md5Sample).1 _ plain []
    rw [List.append_nil] at read
    rw [read]
    rfl
  · exact .insert (by decide) (.keep rfl .nil)
  · exact .keep (.same _) (.keep (.same _) (.keep (.same _) .nil))

end Sample

end Idsm.EthProbe.Tls
