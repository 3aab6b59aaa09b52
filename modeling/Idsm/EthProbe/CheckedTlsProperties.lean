import Idsm.EthProbe.CheckedUdpProperties

/-! The ClientHello parser reads only inside the record, and its loops end. -/

set_option autoImplicit false

namespace Idsm.EthProbe

open Idsm.Foundation
open Idsm.EthProbe.Tls (ExtensionTexts isGrease appendU16)

variable {data : List UInt8} {p index : Nat}

section Pointers

theorem behind_read (there : p + index < data.length) :
    (View.behind data p).read data index = .ok (byteAt (data.drop p) index) := by
  have length : (View.behind data p).length = data.length - p := rfl
  have read := @read_byteAt data (.behind data p) index (View.behind_inside (by omega))
    (by rw [length]; omega)
  rw [View.bytes_behind] at read
  exact read

theorem behind_rd16 (there : p + (index + 1) < data.length) :
    Checked.rd16 data (.behind data p) index = .ok (rd16 (data.drop p) index) := by
  have length : (View.behind data p).length = data.length - p := rfl
  have read := @checked_rd16 data (.behind data p) index (View.behind_inside (by omega))
    (by rw [length]; omega)
  rw [View.bytes_behind] at read
  exact read

theorem behind_copy {skipped count : Nat} (pointer : p ≤ data.length)
    (there : p + (skipped + count) ≤ data.length) :
    (View.behind data p).copy data skipped count = .ok (slice (data.drop p) skipped count) := by
  have length : (View.behind data p).length = data.length - p := rfl
  have copied := @copy_slice data (.behind data p) skipped count (View.behind_inside pointer)
    (by rw [length]; omega)
  rw [View.bytes_behind] at copied
  exact copied

end Pointers

section Loops

/-- The index of 16 bits does not wrap below a length of 16 bits. -/
theorem appendWords_ok {len : UInt16} {inside : UInt16 → Bool} {passes : Nat} {i : UInt16}
    {ss : String} {first : Bool}
    (readable : ∀ i : UInt16, i.toNat + 1 < len.toNat → inside i → p + (i.toNat + 1) < data.length)
    (enough : len.toNat - i.toNat < passes) :
    Checked.appendWords data p len inside passes i ss first =
      .ok (Tls.appendWords (data.drop p) len inside i ss first) := by
  induction passes generalizing i ss first with
  | zero => exact absurd enough (Nat.not_lt_zero _)
  | succ passes ih =>
      rw [Checked.appendWords, Tls.appendWords]
      by_cases more : i.toNat + 1 < len.toNat ∧ inside i
      · have bound := len.toNat_lt
        have next : (i + 2).toNat = i.toNat + 2 := by
          rw [UInt16.toNat_add]
          exact Nat.mod_eq_of_lt (by simp only [UInt16.reduceToNat]; omega)
        rw [if_pos more, if_pos more, behind_rd16 (readable i more.1 more.2), Checked.ok_bind]
        exact ih (by rw [next]; omega)
      · rw [if_neg more, if_neg more]
        rfl

theorem appendGroups_ok {elen : UInt16} {cSs : String} {cFirst : Bool}
    (there : p + elen.toNat ≤ data.length) (long : 2 ≤ elen.toNat) :
    Checked.appendGroups data p elen cSs cFirst =
      .ok (Tls.appendGroups (data.drop p) elen cSs cFirst) := by
  rw [Checked.appendGroups, behind_rd16 (by omega), Checked.ok_bind, appendWords_ok]
  · rw [Tls.appendGroups, List.drop_drop]
  · intro i _ within
    have below : 2 + i.toNat + 1 < elen.toNat := of_decide_eq_true within
    omega
  · have bound := (rd16 (data.drop p) 0).toNat_lt
    omega

theorem appendFormats_ok {elen : UInt16} {passes : Nat} {i : UInt8} {fSs : String} {fFirst : Bool}
    (there : p + elen.toNat ≤ data.length)
    (enough : (byteAt (data.drop p) 0).toNat - i.toNat < passes) :
    Checked.appendFormats data p elen (byteAt (data.drop p) 0) passes i fSs fFirst =
      .ok (Tls.appendFormats (data.drop p) elen i fSs fFirst) := by
  induction passes generalizing i fSs fFirst with
  | zero => exact absurd enough (Nat.not_lt_zero _)
  | succ passes ih =>
      rw [Checked.appendFormats, Tls.appendFormats]
      by_cases more : i.toNat < (byteAt (data.drop p) 0).toNat ∧ 1 + i.toNat < elen.toNat
      · have bound := (byteAt (data.drop p) 0).toNat_lt
        have next : (i + 1).toNat = i.toNat + 1 := by
          rw [UInt8.toNat_add]
          exact Nat.mod_eq_of_lt (by simp only [UInt8.reduceToNat]; omega)
        rw [if_pos more, if_pos more, behind_read (by omega), Checked.ok_bind]
        exact ih (by rw [next]; omega)
      · rw [if_neg more, if_neg more]
        rfl

/-- A name that is taken stands in the input. -/
theorem serverName_ok {elen : UInt16} {sni : List UInt8} (there : p + elen.toNat ≤ data.length)
    (long : 5 ≤ elen.toNat) (drawn : DrawnFrom data sni) :
    Checked.serverName data p elen sni = .ok (Tls.serverName (data.drop p) elen sni) ∧
      DrawnFrom data (Tls.serverName (data.drop p) elen sni) := by
  rw [Checked.serverName, Tls.serverName, behind_rd16 (by omega), Checked.ok_bind]
  by_cases list : (rd16 (data.drop p) 0).toNat + 2 ≤ elen.toNat
  · rw [if_pos list, behind_read (by omega), Checked.ok_bind]
    by_cases host : byteAt (data.drop p) 2 = 0
    · rw [if_pos host, if_pos ⟨list, host⟩, behind_rd16 (by omega), Checked.ok_bind]
      by_cases fits : 5 + (rd16 (data.drop p) 3).toNat ≤ elen.toNat
      · rw [if_pos fits, if_pos fits, behind_copy (by omega) (by omega)]
        refine ⟨rfl, ⟨⟨p + 5, (rd16 (data.drop p) 3).toNat⟩, ?_, ?_⟩⟩
        · change p + 5 + (rd16 (data.drop p) 3).toNat ≤ data.length
          omega
        · rw [slice, List.drop_drop]
          rfl
      · rw [if_neg fits, if_neg fits]
        exact ⟨rfl, drawn⟩
    · rw [if_neg host, if_neg (not_and.mpr fun _ => host)]
      exact ⟨rfl, drawn⟩
  · rw [if_neg list, if_neg (not_and.mpr fun short => absurd short list)]
    exact ⟨rfl, drawn⟩

theorem readExtension_ok {etype elen : UInt16} {texts : ExtensionTexts}
    (there : p + elen.toNat ≤ data.length) (drawn : DrawnFrom data texts.sni) :
    Checked.readExtension data etype elen p texts =
        .ok (Tls.readExtension etype elen (data.drop p) texts) ∧
      DrawnFrom data (Tls.readExtension etype elen (data.drop p) texts).sni := by
  rw [Checked.readExtension, Tls.readExtension]
  generalize (if isGrease etype then (texts.exts, texts.eFirst)
    else appendU16 texts.exts etype texts.eFirst) = listed
  obtain ⟨exts, eFirst⟩ := listed
  dsimp only
  by_cases name : etype = 0x0000 ∧ 5 ≤ elen.toNat
  · obtain ⟨read, stands⟩ := serverName_ok there name.2 drawn
    rw [if_pos name, if_pos name, read, Checked.ok_bind]
    exact ⟨rfl, stands⟩
  · rw [if_neg name, if_neg name]
    by_cases groups : etype = 0x000A ∧ 2 ≤ elen.toNat
    · rw [if_pos groups, if_pos groups, appendGroups_ok there groups.2, Checked.ok_bind]
      exact ⟨rfl, drawn⟩
    · rw [if_neg groups, if_neg groups]
      by_cases formats : etype = 0x000B ∧ 1 ≤ elen.toNat
      · have bound := (byteAt (data.drop p) 0).toNat_lt
        rw [if_pos formats, if_pos formats, behind_read (by omega), Checked.ok_bind,
          appendFormats_ok there (by rw [UInt8.toNat_zero]; omega), Checked.ok_bind]
        exact ⟨rfl, drawn⟩
      · rw [if_neg formats, if_neg formats]
        exact ⟨rfl, drawn⟩

/-- Each extension moves the offset on, and lies within their total length. -/
theorem readExtensions_ok {extTotal passes eoff : Nat} {texts : ExtensionTexts}
    (there : p + extTotal ≤ data.length) (enough : extTotal - eoff < passes)
    (drawn : DrawnFrom data texts.sni) :
    Checked.readExtensions data p extTotal passes eoff texts =
        .ok (Tls.readExtensions (data.drop p) extTotal eoff texts) ∧
      (∀ after, Tls.readExtensions (data.drop p) extTotal eoff texts = .ok after →
        DrawnFrom data after.sni) ∧
      ∀ after, Tls.readExtensions (data.drop p) extTotal eoff texts = .error after →
        DrawnFrom data after.sni := by
  induction passes generalizing eoff texts with
  | zero => exact absurd enough (Nat.not_lt_zero _)
  | succ passes ih =>
      rw [Checked.readExtensions, Tls.readExtensions]
      by_cases more : eoff + 4 ≤ extTotal
      · rw [if_pos more, if_pos more, behind_rd16 (by omega), Checked.ok_bind,
          behind_rd16 (by omega), Checked.ok_bind]
        dsimp only
        by_cases beyond : extTotal < eoff + 4 + (rd16 (data.drop p) (eoff + 2)).toNat
        · rw [if_pos beyond, if_pos beyond]
          refine ⟨rfl, ?_, ?_⟩
          · intro after same
            cases same
          · intro after same
            cases same
            exact drawn
        · obtain ⟨read, stands⟩ := @readExtension_ok data (p + (eoff + 4))
            (rd16 (data.drop p) eoff) (rd16 (data.drop p) (eoff + 2)) texts (by omega) drawn
          rw [if_neg beyond, if_neg beyond, read, Checked.ok_bind, List.drop_drop]
          exact ih (by omega) stands
      · rw [if_neg more, if_neg more]
        refine ⟨rfl, ?_, ?_⟩
        · intro after same
          cases same
          exact drawn
        · intro after same
          cases same

end Loops

section Parse

/-- The server name stands in the input, and no more than the input is used. -/
structure HelloDrawn (data : List UInt8) (h : Tls.TlsClientHello) : Prop where
  sni : DrawnFrom data h.sni
  consumed : h.consumed ≤ data.length

variable {rem : Nat} {ja3 : String} {h : Tls.TlsClientHello} (md5Hex : String → String)

theorem looksLikeTls_ok (data : List UInt8) :
    Checked.looksLikeTls data = .ok (looksLikeTls data) := by
  rw [Checked.looksLikeTls, looksLikeTls]
  by_cases short : data.length < 3
  · rw [if_pos short, if_pos short]
    rfl
  · rw [if_neg short, if_neg short]
    dsimp only
    rw [whole_read (by omega), Checked.ok_bind]
    by_cases other : byteAt data 0 < 20 ∨ 23 < byteAt data 0
    · rw [if_pos other, if_pos other]
      rfl
    · rw [if_neg other, if_neg other]
      simp (disch := omega) only [whole_read, Checked.ok_bind]
      rfl

theorem readExtensionBlock_ok (there : p + rem ≤ data.length) (drawn : HelloDrawn data h) :
    Checked.readExtensionBlock data md5Hex p rem ja3 h =
        .ok (Tls.readExtensionBlock md5Hex (data.drop p) rem ja3 h) ∧
      HelloDrawn data (Tls.readExtensionBlock md5Hex (data.drop p) rem ja3 h) := by
  rw [Checked.readExtensionBlock, Tls.readExtensionBlock]
  dsimp only
  by_cases some : 2 ≤ rem
  · rw [if_pos some, if_pos some, behind_rd16 (by omega), Checked.ok_bind, checkedSub_ok some,
      Checked.ok_bind]
    by_cases beyond : rem - 2 < (rd16 (data.drop p) 0).toNat
    · rw [if_pos beyond, if_pos beyond]
      exact ⟨rfl, drawn.sni, drawn.consumed⟩
    · obtain ⟨read, good, bad⟩ := @readExtensions_ok data (p + 2) (rd16 (data.drop p) 0).toNat
        (data.length + 1) 0 .empty (by omega) (by omega) drawnFrom_nil
      rw [if_neg beyond, if_neg beyond, read, Checked.ok_bind, List.drop_drop]
      cases result : Tls.readExtensions (data.drop (p + 2)) (rd16 (data.drop p) 0).toNat 0 .empty with
      | error texts => exact ⟨rfl, bad texts result, drawn.consumed⟩
      | ok texts => exact ⟨rfl, good texts result, drawn.consumed⟩
  · rw [if_neg some, if_neg some]
    exact ⟨rfl, drawnFrom_nil, drawn.consumed⟩

theorem HelloDrawn.malformed (drawn : HelloDrawn data h) :
    HelloDrawn data { h with error := .malformed } :=
  ⟨drawn.sni, drawn.consumed⟩

theorem readHandshake_ok (there : p + rem ≤ data.length) (drawn : HelloDrawn data h) :
    Checked.readHandshake data md5Hex p rem h =
        .ok (Tls.readHandshake md5Hex (data.drop p) rem h) ∧
      HelloDrawn data (Tls.readHandshake md5Hex (data.drop p) rem h) := by
  rw [Checked.readHandshake, Tls.readHandshake]
  by_cases short : rem < 34
  · rw [if_pos short, if_pos short]
    exact ⟨rfl, drawn.malformed⟩
  · rw [if_neg short, if_neg short, behind_rd16 (by omega), Checked.ok_bind,
      checkedSub_ok (by omega), Checked.ok_bind]
    have named : HelloDrawn data { h with clientVersion := rd16 (data.drop p) 0 } :=
      ⟨drawn.sni, drawn.consumed⟩
    simp only [List.drop_drop]
    by_cases noSession : rem - 34 < 1
    · rw [if_pos noSession, if_pos noSession]
      exact ⟨rfl, named.malformed⟩
    · rw [if_neg noSession, if_neg noSession, behind_read (by omega), Checked.ok_bind,
        checkedSub_ok (by omega), Checked.ok_bind]
      generalize (byteAt (data.drop (p + 34)) 0).toNat = sidLen
      by_cases longSession : rem - 34 - 1 < sidLen
      · rw [if_pos longSession, if_pos longSession]
        exact ⟨rfl, named.malformed⟩
      · rw [if_neg longSession, if_neg longSession, checkedSub_ok (by omega), Checked.ok_bind]
        by_cases noCiphers : rem - 34 - 1 - sidLen < 2
        · rw [if_pos noCiphers, if_pos noCiphers]
          exact ⟨rfl, named.malformed⟩
        · rw [if_neg noCiphers, if_neg noCiphers, behind_rd16 (by omega), Checked.ok_bind,
            checkedSub_ok (by omega), Checked.ok_bind]
          generalize rd16 (data.drop (p + 34 + 1 + sidLen)) 0 = csLen
          by_cases badCiphers : rem - 34 - 1 - sidLen - 2 < csLen.toNat ∨ csLen.toNat % 2 ≠ 0
          · rw [if_pos badCiphers, if_pos badCiphers]
            exact ⟨rfl, named.malformed⟩
          · have bound := csLen.toNat_lt
            rw [if_neg badCiphers, if_neg badCiphers,
              appendWords_ok (fun i below _ => by omega) (by rw [UInt16.toNat_zero]; omega),
              Checked.ok_bind, checkedSub_ok (by omega), Checked.ok_bind]
            by_cases noMethods : rem - 34 - 1 - sidLen - 2 - csLen.toNat < 1
            · rw [if_pos noMethods, if_pos noMethods]
              exact ⟨rfl, named.malformed⟩
            · rw [if_neg noMethods, if_neg noMethods, behind_read (by omega), Checked.ok_bind,
                checkedSub_ok (by omega), Checked.ok_bind]
              generalize (byteAt (data.drop (p + 34 + 1 + sidLen + 2 + csLen.toNat)) 0).toNat =
                compLen
              by_cases longMethods : rem - 34 - 1 - sidLen - 2 - csLen.toNat - 1 < compLen
              · rw [if_pos longMethods, if_pos longMethods]
                exact ⟨rfl, named.malformed⟩
              · rw [if_neg longMethods, if_neg longMethods, checkedSub_ok (by omega), Checked.ok_bind]
                exact readExtensionBlock_ok md5Hex (by omega) named

theorem checked_parseTlsClientHello (data : List UInt8) :
    Checked.parseTlsClientHello data md5Hex = .ok (Tls.parseTlsClientHello md5Hex data) ∧
      HelloDrawn data (Tls.parseTlsClientHello md5Hex data) := by
  have untouched : ∀ version error, HelloDrawn data
      { Tls.TlsClientHello.empty with recordVersion := version, error } :=
    fun _ _ => ⟨drawnFrom_nil, Nat.zero_le _⟩
  rw [Checked.parseTlsClientHello, Tls.parseTlsClientHello, looksLikeTls_ok, Checked.ok_bind]
  cases looks : looksLikeTls data with
  | false => exact ⟨rfl, untouched _ _⟩
  | true =>
      have accepted : ¬ (!true) = true := Bool.false_ne_true
      rw [if_neg accepted, if_neg accepted]
      by_cases short : data.length < 5
      · rw [if_pos short, if_pos short]
        exact ⟨rfl, untouched _ _⟩
      · rw [if_neg short, if_neg short]
        simp (disch := omega) only [whole_read, whole_rd16, Checked.ok_bind]
        by_cases other : byteAt data 0 ≠ 22
        · rw [if_pos other, if_pos other]
          exact ⟨rfl, untouched _ _⟩
        · rw [if_neg other, if_neg other]
          generalize (rd16 data 3).toNat = reclen
          by_cases cut : data.length < 5 + reclen
          · rw [if_pos cut, if_pos cut]
            exact ⟨rfl, untouched _ _⟩
          · rw [if_neg cut, if_neg cut]
            by_cases small : reclen < 4
            · rw [if_pos small, if_pos (.inl small)]
              exact ⟨rfl, untouched _ _⟩
            · rw [if_neg small, whole_read (by omega), Checked.ok_bind]
              by_cases kind : byteAt data 5 ≠ 1
              · rw [if_pos kind, if_pos (.inr kind)]
                exact ⟨rfl, untouched _ _⟩
              · rw [if_neg kind, if_neg (not_or.mpr ⟨small, kind⟩), checkedSub_ok (by omega),
                  Checked.ok_bind]
                exact readHandshake_ok md5Hex (by omega) ⟨drawnFrom_nil, by dsimp only; omega⟩

end Parse

end Idsm.EthProbe
