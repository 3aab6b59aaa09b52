import Idsm.EthProbe.CheckedPacketProperties
import Idsm.EthProbe.CheckedParsers
import Idsm.EthProbe.DnsQuestionProperties

/-! The parsers of DoIP, DNS and SOME/IP read only inside their input, and what they return comes
from there. -/

set_option autoImplicit false

namespace Idsm.EthProbe

open Idsm.Foundation

variable {data : List UInt8} {off : Nat}

section Whole

theorem whole_read (there : off < data.length) :
    (View.whole data).read data off = .ok (byteAt data off) := by
  have read := @read_byteAt data (.whole data) off View.whole_inside there
  rw [View.bytes_whole] at read
  exact read

theorem whole_rd16 (there : off + 1 < data.length) :
    Checked.rd16 data (.whole data) off = .ok (rd16 data off) := by
  have read := @checked_rd16 data (.whole data) off View.whole_inside there
  rw [View.bytes_whole] at read
  exact read

theorem whole_rd32 (there : off + 3 < data.length) :
    Checked.rd32 data (.whole data) off = .ok (rd32 data off) := by
  have read := @checked_rd32 data (.whole data) off View.whole_inside there
  rw [View.bytes_whole] at read
  exact read

theorem whole_copy {count : Nat} (there : off + count ≤ data.length) :
    (View.whole data).copy data off count = .ok (slice data off count) := by
  have copied := @copy_slice data (.whole data) off count View.whole_inside there
  rw [View.bytes_whole] at copied
  exact copied

/-- Bytes that stand in the input. -/
def DrawnFrom (data bytes : List UInt8) : Prop :=
  ∃ view : View, view.Inside data.length ∧ bytes = view.bytes data

theorem drawnFrom_nil : DrawnFrom data [] :=
  ⟨.null, View.null_inside _, View.bytes_null.symm⟩

theorem drawnFrom_slice {count : Nat} (there : off + count ≤ data.length) :
    DrawnFrom data (slice data off count) :=
  ⟨⟨off, count⟩, there, rfl⟩

end Whole

section Doip

theorem checked_parseDoip (data : List UInt8) :
    ∃ i, Checked.parseDoip data = .ok i ∧ i.info = parseDoip data ∧
      i.payload.Inside data.length := by
  rw [Checked.parseDoip, parseDoip]
  by_cases short : data.length < 8
  · rw [if_pos short, if_pos short]
    exact ⟨_, rfl, rfl, View.null_inside _⟩
  · rw [if_neg short, if_neg short]
    have inside : (⟨8, data.length - 8⟩ : View).Inside data.length := by
      change 8 + (data.length - 8) ≤ data.length
      omega
    simp (disch := omega) only [whole_read, whole_rd16, whole_rd32, checkedSub_ok, Checked.ok_bind]
    by_cases inverse : byteAt data 0 ≠ ~~~byteAt data 1
    · rw [if_pos inverse, if_pos inverse]
      exact ⟨_, rfl, rfl, inside⟩
    · rw [if_neg inverse, if_neg inverse]
      by_cases version : byteAt data 0 ≠ 2 ∧ byteAt data 0 ≠ 3
      · rw [if_pos version, if_pos version]
        exact ⟨_, rfl, rfl, inside⟩
      · rw [if_neg version, if_neg version]
        by_cases long : data.length - 8 < (rd32 data 4).toNat
        · rw [if_pos long, if_pos long]
          exact ⟨_, rfl, rfl, inside⟩
        · rw [if_neg long, if_neg long]
          by_cases unknown : knownPayloadType (rd16 data 2) = false
          · rw [if_pos unknown, if_pos unknown]
            exact ⟨_, rfl, rfl, inside⟩
          · rw [if_neg unknown, if_neg unknown]
            exact ⟨_, rfl, rfl, inside⟩

end Doip

section Dns

/-- A label's loop ends with its bytes; its index does not wrap. -/
theorem readLabel_ok {start passes : Nat} {l j : UInt8} {label : List UInt8}
    (inside : start + l.toNat ≤ data.length) (enough : l.toNat - j.toNat < passes) :
    Checked.readLabel data start l passes j label =
      .ok (label ++ slice data (start + j.toNat) (l.toNat - j.toNat)) := by
  induction passes generalizing j label with
  | zero => exact absurd enough (Nat.not_lt_zero _)
  | succ passes ih =>
      rw [Checked.readLabel]
      by_cases more : j < l
      · have below := UInt8.lt_iff_toNat_lt.mp more
        have bound := l.toNat_lt
        have next : (j + 1).toNat = j.toNat + 1 := by
          rw [UInt8.toNat_add]
          exact Nat.mod_eq_of_lt (by simp only [UInt8.reduceToNat]; omega)
        rw [if_pos more, whole_read (by omega), Checked.ok_bind, ih (by omega), next]
        have first : slice data (start + j.toNat) (l.toNat - j.toNat) =
            byteAt data (start + j.toNat) ::
              slice data (start + (j.toNat + 1)) (l.toNat - (j.toNat + 1)) := by
          have there : start + j.toNat < data.length := by omega
          have count : l.toNat - j.toNat = (l.toNat - (j.toNat + 1)) + 1 := by omega
          rw [slice, slice, List.drop_eq_getElem_cons there, count, List.take_succ_cons, byteAt,
            List.getD_eq_getElem _ _ there]
          rfl
        rw [first, List.append_assoc, List.singleton_append]
      · have done : l.toNat - j.toNat = 0 := by
          have above := UInt8.lt_iff_toNat_lt.not.mp more
          omega
        rw [if_neg more, done, slice, List.take_zero, List.append_nil]
        rfl

/-- The walk over a name ends after so many passes as it counts, and reads inside. -/
theorem checked_walkName {passes hops totalNameLen qend : Nat} {name : List UInt8}
    (counted : hops ≤ dnsMaxHops) (enough : dnsMaxHops - hops < passes) :
    Checked.walkName data passes hops off totalNameLen qend name =
      .ok (walkName data (dnsMaxHops - hops) off totalNameLen qend name) := by
  induction passes generalizing hops off totalNameLen qend name with
  | zero => exact absurd enough (Nat.not_lt_zero _)
  | succ passes ih =>
      rw [Checked.walkName]
      by_cases last : hops = dnsMaxHops
      · rw [if_pos (.inl (by omega)), last, Nat.sub_self, walkName]
        rfl
      · have left : dnsMaxHops - hops = (dnsMaxHops - (hops + 1)) + 1 := by omega
        rw [left, walkName]
        by_cases behind : data.length ≤ off
        · rw [if_pos (.inr behind), if_pos behind]
          rfl
        · rw [if_neg (by omega), if_neg behind, whole_read (by omega), Checked.ok_bind]
          generalize byteAt data off = l
          by_cases pointer : l &&& 0xC0 = 0xC0
          · rw [if_pos pointer, if_pos pointer]
            by_cases cut : data.length ≤ off + 1
            · rw [if_pos cut, if_pos cut]
              rfl
            · rw [if_neg cut, if_neg cut, whole_read (by omega), Checked.ok_bind]
              by_cases outside : data.length ≤
                  (l &&& 0x3F).toNat * 256 + (byteAt data (off + 1)).toNat
              · rw [if_pos outside, if_pos outside]
                rfl
              · rw [if_neg outside, if_neg outside]
                exact ih (by omega) (by omega)
          · rw [if_neg pointer, if_neg pointer]
            by_cases root : l = 0
            · rw [if_pos root, if_pos root]
              rfl
            · rw [if_neg root, if_neg root]
              by_cases long : 63 < l ∨ data.length < off + 1 + l.toNat
              · rw [if_pos long, if_pos long]
                rfl
              · rw [if_neg long, if_neg long]
                by_cases exceeds : 255 < totalNameLen + (l.toNat + 1)
                · rw [if_pos exceeds, if_pos exceeds]
                  rfl
                · have bound := l.toNat_lt
                  rw [if_neg exceeds, if_neg exceeds,
                    readLabel_ok (by omega) (by rw [UInt8.toNat_zero]; omega), Checked.ok_bind,
                    List.nil_append]
                  dsimp only
                  rw [UInt8.toNat_zero, Nat.add_zero, Nat.sub_zero]
                  by_cases fine : (slice data (off + 1) l.toNat).all labelCharOk
                  · rw [if_pos fine, if_pos fine]
                    exact ih (by omega) (by omega)
                  · rw [if_neg fine, if_neg fine]
                    rfl

/-- A name is made of labels that stand in the input, with dots between them. -/
def Labelled (data name : List UInt8) : Prop :=
  ∃ labels : List View, (∀ view ∈ labels, view.Inside data.length) ∧
    name = dottedName (labels.map (View.bytes data))

theorem walkName_labels {hops totalNameLen qend past : Nat} {name : List UInt8}
    {labels : List View} (inside : ∀ view ∈ labels, view.Inside data.length)
    (walked : walkName data hops off totalNameLen qend (withDots (labels.map (View.bytes data))) =
      .ok (name, past)) :
    ∃ all : List View, (∀ view ∈ all, view.Inside data.length) ∧
      name = withDots (all.map (View.bytes data)) := by
  induction hops generalizing off totalNameLen qend labels with
  | zero => cases walked
  | succ hops ih =>
      rw [walkName] at walked
      by_cases behind : data.length ≤ off
      · rw [if_pos behind] at walked
        cases walked
      · rw [if_neg behind] at walked
        dsimp only at walked
        generalize byteAt data off = l at walked
        by_cases pointer : l &&& 0xC0 = 0xC0
        · rw [if_pos pointer] at walked
          by_cases cut : data.length ≤ off + 1
          · rw [if_pos cut] at walked
            cases walked
          · rw [if_neg cut] at walked
            by_cases outside : data.length ≤
                (l &&& 0x3F).toNat * 256 + (byteAt data (off + 1)).toNat
            · rw [if_pos outside] at walked
              cases walked
            · rw [if_neg outside] at walked
              exact ih inside walked
        · rw [if_neg pointer] at walked
          by_cases root : l = 0
          · rw [if_pos root] at walked
            cases walked
            exact ⟨labels, inside, rfl⟩
          · rw [if_neg root] at walked
            by_cases long : 63 < l ∨ data.length < off + 1 + l.toNat
            · rw [if_pos long] at walked
              cases walked
            · rw [if_neg long] at walked
              by_cases exceeds : 255 < totalNameLen + (l.toNat + 1)
              · rw [if_pos exceeds] at walked
                cases walked
              · rw [if_neg exceeds] at walked
                by_cases fine : (slice data (off + 1) l.toNat).all labelCharOk
                · rw [if_pos fine] at walked
                  have longer : withDots (labels.map (View.bytes data)) ++
                      slice data (off + 1) l.toNat ++ [46] =
                        withDots ((labels ++ [(⟨off + 1, l.toNat⟩ : View)]).map (View.bytes data)) := by
                    rw [withDots, withDots, List.map_append, List.flatMap_append, List.append_assoc,
                      List.map_singleton, List.flatMap_singleton]
                    rfl
                  rw [longer] at walked
                  refine ih ?_ walked
                  intro view member
                  cases List.mem_append.1 member with
                  | inl earlier => exact inside view earlier
                  | inr label =>
                      rw [List.mem_singleton.1 label]
                      change off + 1 + l.toNat ≤ data.length
                      omega
                · rw [if_neg fine] at walked
                  cases walked

theorem labelled_nil : Labelled data [] := ⟨[], (fun _ member => nomatch member), rfl⟩

theorem labelled_qname (data : List UInt8) : Labelled data (parseDns data).qname := by
  rw [parseDns]
  by_cases short : data.length < 12
  · rw [if_pos short]
    exact labelled_nil
  · rw [if_neg short]
    dsimp only
    by_cases noQuestion : (DnsInfo.header data).qdcount = 0
    · rw [if_pos noQuestion]
      exact labelled_nil
    · rw [if_neg noQuestion]
      cases walked : walkName data dnsMaxHops 12 0 0 [] with
      | error error => exact labelled_nil
      | ok found =>
          obtain ⟨name, past⟩ := found
          obtain ⟨labels, inside, same⟩ := @walkName_labels data 12 dnsMaxHops 0 0 past name []
            (by rintro _ ⟨⟩) walked
          have labelled : Labelled data (trimDot name) :=
            ⟨labels, inside, by rw [same, trimDot_withDots]⟩
          dsimp only
          by_cases cut : data.length < past + 4
          · rw [if_pos cut]
            exact labelled
          · rw [if_neg cut]
            exact labelled

theorem checked_parseDns (data : List UInt8) : Checked.parseDns data = .ok (parseDns data) := by
  rw [Checked.parseDns, parseDns]
  by_cases short : data.length < 12
  · rw [if_pos short, if_pos short]
    rfl
  · rw [if_neg short, if_neg short]
    simp (disch := omega) only [whole_rd16, Checked.ok_bind]
    have header : (DnsInfo.header data).qdcount = rd16 data 4 := rfl
    rw [header]
    by_cases noQuestion : rd16 data 4 = 0
    · rw [if_pos noQuestion, if_pos noQuestion]
      rfl
    · rw [if_neg noQuestion, if_neg noQuestion,
        checked_walkName (Nat.zero_le _) (by rw [Nat.sub_zero]; exact Nat.lt_succ_self _),
        Checked.ok_bind, Nat.sub_zero]
      cases walkName data dnsMaxHops 12 0 0 [] with
      | error error => rfl
      | ok found =>
          obtain ⟨name, past⟩ := found
          dsimp only
          by_cases cut : data.length < past + 4
          · rw [if_pos cut, if_pos cut]
            rfl
          · rw [if_neg cut, if_neg cut]
            simp (disch := omega) only [whole_rd16, Checked.ok_bind]
            rfl

end Dns

section Someip

theorem checked_parseSomeip (data : List UInt8) :
    ∃ i, Checked.parseSomeip data = .ok i ∧ i.info data = parseSomeip data ∧
      i.payload.Inside data.length := by
  rw [Checked.parseSomeip, parseSomeip]
  by_cases short : data.length < 16
  · rw [if_pos short, if_pos short]
    exact ⟨_, rfl, rfl, View.null_inside _⟩
  · rw [if_neg short, if_neg short]
    have inside : (⟨16, data.length - 16⟩ : View).Inside data.length := by
      change 16 + (data.length - 16) ≤ data.length
      omega
    have bytes : (⟨16, data.length - 16⟩ : View).bytes data = data.drop 16 := View.bytes_behind 16
    have carried : (data.drop 16).length = data.length - 16 := List.length_drop
    simp (disch := omega) only [whole_read, whole_rd16, whole_rd32, checkedSub_ok, Checked.ok_bind]
    rw [carried]
    by_cases less : (rd32 data 4).toNat < 8
    · rw [if_pos less, if_pos (.inl less)]
      exact ⟨_, rfl, by rw [SomeipView.info, bytes], inside⟩
    · rw [if_neg less, checkedSub_ok (Nat.not_lt.mp less), Checked.ok_bind]
      by_cases long : data.length - 16 < (rd32 data 4).toNat - 8
      · rw [if_pos long, if_pos (.inr long)]
        exact ⟨_, rfl, by rw [SomeipView.info, bytes], inside⟩
      · rw [if_neg long, if_neg (not_or.mpr ⟨less, long⟩)]
        by_cases version : byteAt data 12 ≠ 1
        · rw [if_pos version, if_pos version]
          exact ⟨_, rfl, by rw [SomeipView.info, bytes], inside⟩
        · rw [if_neg version, if_neg version]
          by_cases unknown : knownMsgType (byteAt data 14) = false
          · rw [if_pos unknown, if_pos unknown]
            exact ⟨_, rfl, by rw [SomeipView.info, bytes], inside⟩
          · rw [if_neg unknown, if_neg unknown]
            exact ⟨_, rfl, by rw [SomeipView.info, bytes], inside⟩

theorem readSdEntry_ok {e : View} (inside : e.Inside data.length) (there : off + 16 ≤ e.length) :
    Checked.readSdEntry data e off = .ok (sdEntryAt (e.bytes data) off) := by
  rw [Checked.readSdEntry]
  simp (disch := omega) only [read_byteAt inside, checked_rd16 inside, Checked.ok_bind]
  rfl

/-- The loop over the entries ends with them; its offset does not wrap. -/
theorem readSdEntries_ok {e : View} {entriesLen off : UInt32} {passes : Nat} {out : List SdEntry}
    (inside : e.Inside data.length) (fits : entriesLen.toNat ≤ e.length)
    (whole : entriesLen.toNat % 16 = 0) (at_entry : off.toNat % 16 = 0)
    (within : off.toNat ≤ entriesLen.toNat)
    (enough : (entriesLen.toNat - off.toNat) / 16 < passes) :
    Checked.readSdEntries data e entriesLen passes off out =
      .ok (out ++ (List.range' (off.toNat / 16) ((entriesLen.toNat - off.toNat) / 16)).map
        fun index => sdEntryAt (e.bytes data) (16 * index)) := by
  induction passes generalizing off out with
  | zero => exact absurd enough (Nat.not_lt_zero _)
  | succ passes ih =>
      rw [Checked.readSdEntries]
      have bound := entriesLen.toNat_lt
      by_cases more : off < entriesLen
      · have below := UInt32.lt_iff_toNat_lt.mp more
        have next : (off + 16).toNat = off.toNat + 16 := by
          rw [UInt32.toNat_add]
          exact Nat.mod_eq_of_lt (by simp only [UInt32.reduceToNat]; omega)
        have count : (entriesLen.toNat - off.toNat) / 16 =
            (entriesLen.toNat - (off + 16).toNat) / 16 + 1 := by
          rw [next]
          omega
        have position : 16 * (off.toNat / 16) = off.toNat := by omega
        have onward : (off + 16).toNat / 16 = off.toNat / 16 + 1 := by
          rw [next]
          omega
        rw [if_pos more, readSdEntry_ok inside (by omega), Checked.ok_bind,
          ih (by rw [next]; omega) (by rw [next]; omega) (by omega), count, List.range'_succ,
          List.map_cons, position, onward, List.append_assoc, List.singleton_append]
      · have done : (entriesLen.toNat - off.toNat) / 16 = 0 := by
          have above := UInt32.lt_iff_toNat_lt.not.mp more
          omega
        rw [if_neg more, done, List.range'_zero, List.map_nil, List.append_nil]
        rfl

theorem checked_parseSdEntries (data : List UInt8) :
    Checked.parseSdEntries data = .ok (parseSdEntries data) := by
  rw [Checked.parseSdEntries, parseSdEntries]
  by_cases short : data.length < 8
  · rw [if_pos short, if_pos short]
    rfl
  · rw [if_neg short, if_neg short, whole_rd32 (by omega), Checked.ok_bind,
      checkedSub_ok (Nat.not_lt.mp short), Checked.ok_bind]
    by_cases bad : data.length - 8 < (rd32 data 4).toNat ∨ (rd32 data 4).toNat % 16 ≠ 0
    · rw [if_pos bad, if_pos bad]
      rfl
    · rw [if_neg bad, if_neg bad]
      have inside : (⟨8, data.length - 8⟩ : View).Inside data.length := by
        change 8 + (data.length - 8) ≤ data.length
        omega
      have bytes : (⟨8, data.length - 8⟩ : View).bytes data = data.drop 8 := View.bytes_behind 8
      rw [readSdEntries_ok inside (by dsimp only; omega) (by omega) rfl (Nat.zero_le _)
        (by rw [UInt32.toNat_zero]; omega), Checked.ok_bind, bytes, UInt32.toNat_zero, Nat.sub_zero,
        Nat.zero_div, List.nil_append, List.range_eq_range']
      rfl

end Someip

end Idsm.EthProbe
