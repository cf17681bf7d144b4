import Mathlib
import ReviewRota.Json.Reader

/-!
# Compact text and its bytes

The bytes that are written for a value are the UTF-8 of a string, whatever characters the texts of
the value hold.  So nothing is lost in the string, and its bytes are again what was written.
-/

namespace ReviewRota.Json

variable {s t : String} {b : UInt8} {bs bs' : Bytes}

theorem toList_loop (bytes : ByteArray) (i : Nat) (bs : Bytes) :
    ByteArray.toList.loop bytes i bs = bs.reverse ++ bytes.data.toList.drop i := by
  fun_induction ByteArray.toList.loop bytes i bs with
  | case1 i bs hi ih =>
      have hlength : i < bytes.data.toList.length := hi
      have hget : bytes.get! i = bytes.data.toList[i] := by
        rw [Array.getElem_toList]
        exact getElem!_pos bytes.data i hi
      rw [ih, List.drop_eq_getElem_cons hlength, hget, List.reverse_cons, List.append_assoc,
        List.singleton_append]
  | case2 i bs hi =>
      rw [List.drop_eq_nil_of_le (Nat.le_of_not_lt hi), List.append_nil]

theorem toList_eq_data_toList (bytes : ByteArray) : bytes.toList = bytes.data.toList := by
  rw [ByteArray.toList, toList_loop, List.reverse_nil, List.nil_append, List.drop_zero]

theorem utf8_ofList (cs : List Char) :
    utf8 (String.ofList cs) = cs.flatMap String.utf8EncodeChar := by
  rw [utf8, toList_eq_data_toList]
  change (String.ofList cs).toByteArray.data.toList = _
  rw [String.toByteArray_ofList, List.utf8Encode, List.toList_data_toByteArray]

theorem utf8_eq_flatMap (s : String) : utf8 s = s.toList.flatMap String.utf8EncodeChar := by
  rw [← utf8_ofList, String.ofList_toList]

theorem utf8_append : utf8 (s ++ t) = utf8 s ++ utf8 t := by
  rw [utf8_eq_flatMap, utf8_eq_flatMap, utf8_eq_flatMap, String.toList_append,
    List.flatMap_append]

theorem fromUTF8?_utf8 (s : String) : String.fromUTF8? ⟨(utf8 s).toArray⟩ = some s := by
  have hbytes : (⟨(utf8 s).toArray⟩ : ByteArray) = s.toByteArray := by
    rw [utf8, toList_eq_data_toList]
    rfl
  have hvalid : ByteArray.IsValidUTF8 ⟨(utf8 s).toArray⟩ := hbytes ▸ s.isValidUTF8
  rw [String.fromUTF8?, dif_pos hvalid, Option.some.injEq, ← String.toByteArray_inj]
  exact hbytes

theorem encodeChar_toNat (h : b < 0x80) : encodeChar b.toNat = [b] := by
  have hlt : b.toNat < 128 := h
  have hval : (Char.ofNat b.toNat).val.toNat = b.toNat := by
    change (Char.ofNat b.toNat).toNat = b.toNat
    rw [Char.toNat_ofNat, if_pos (.inl (by omega))]
  rw [encodeChar, String.utf8EncodeChar, hval, if_pos (by omega), UInt8.ofNat_toNat]

theorem utf8EncodeChar_cases (c : Char) :
    (∃ b < 0x80, String.utf8EncodeChar c = [b]) ∨ ∀ b ∈ String.utf8EncodeChar c, 0x80 ≤ b := by
  fun_cases String.utf8EncodeChar c with
  | case1 v hv =>
      refine .inl ⟨_, ?_, rfl⟩
      simp only [UInt8.lt_iff_toNat_lt, UInt8.toNat_ofNat', UInt8.reduceToNat]
      omega
  | case2 | case3 | case4 =>
      right
      simp only [List.mem_cons, List.not_mem_nil, or_false, forall_eq_or_imp, forall_eq,
        UInt8.le_iff_toNat_le, UInt8.toNat_ofNat', UInt8.reduceToNat]
      omega

def IsUtf8 (bs : Bytes) : Prop := ∃ s, utf8 s = bs

namespace IsUtf8

theorem nil : IsUtf8 [] := ⟨"", by rw [utf8_eq_flatMap, String.toList_empty, List.flatMap_nil]⟩

theorem append (h : IsUtf8 bs) (h' : IsUtf8 bs') : IsUtf8 (bs ++ bs') := by
  obtain ⟨s, rfl⟩ := h
  obtain ⟨t, rfl⟩ := h'
  exact ⟨s ++ t, utf8_append⟩

theorem char (c : Char) : IsUtf8 (String.utf8EncodeChar c) :=
  ⟨String.ofList [c], by rw [utf8_ofList, List.flatMap_singleton]⟩

theorem cons (hb : b < 0x80) (h : IsUtf8 bs) : IsUtf8 (b :: bs) := by
  have hsingle : IsUtf8 [b] := encodeChar_toNat hb ▸ char _
  exact hsingle.append h

theorem of_ascii (h : ∀ b ∈ bs, b < 0x80) : IsUtf8 bs := by
  induction bs with
  | nil => exact nil
  | cons b bs ih =>
      exact cons (h b List.mem_cons_self) (ih fun b' hb' => h b' (List.mem_cons_of_mem b hb'))

end IsUtf8

theorem escapeByte_of_not_lt (hquote : b ≠ quote) (hbackslash : b ≠ backslash) (h : ¬ b < 0x20) :
    escapeByte b = [b] := by
  have hne : ∀ c < (0x20 : UInt8), b ≠ c := by
    rintro c hc rfl
    exact h hc
  rw [escapeByte, if_neg hquote, if_neg hbackslash, if_neg (hne _ (by decide)),
    if_neg (hne _ (by decide)), if_neg (hne _ (by decide)), if_neg (hne _ (by decide)),
    if_neg (hne _ (by decide)), if_neg h]

theorem escapeByte_of_lt (h : b < 0x20) :
    (∃ e < 0x80, escapeByte b = [backslash, e] ∧ escaped? e = some b) ∨
      ∃ high < 0x80, ∃ low < 0x80, escapeByte b = [backslash, 0x75, 0x30, 0x30, high, low] ∧
        unit? 0x30 0x30 high low = some b.toNat := by
  have hall : ∀ n < 32, let b := UInt8.ofNat n;
      (∃ e ∈ [0x62, 0x66, 0x6e, 0x72, 0x74],
        e < 0x80 ∧ escapeByte b = [backslash, e] ∧ escaped? e = some b) ∨
      hexDigit (n / 16) < 0x80 ∧ hexDigit (n % 16) < 0x80 ∧
        escapeByte b = [backslash, 0x75, 0x30, 0x30, hexDigit (n / 16), hexDigit (n % 16)] ∧
        unit? 0x30 0x30 (hexDigit (n / 16)) (hexDigit (n % 16)) = some n := by decide +kernel
  have hb := hall b.toNat h
  rw [UInt8.ofNat_toNat] at hb
  obtain ⟨e, -, he, hbyte, hescaped⟩ | ⟨hhigh, hlow, hbyte, hunit⟩ := hb
  · exact .inl ⟨e, he, hbyte, hescaped⟩
  · exact .inr ⟨_, hhigh, _, hlow, hbyte, hunit⟩

theorem escapeByte_cases (b : UInt8) :
    (escapeByte b = [b] ∧ b ≠ quote ∧ b ≠ backslash ∧ ¬ b < 0x20) ∨
      (∃ e < 0x80, escapeByte b = [backslash, e] ∧ escaped? e = some b) ∨
      ∃ high < 0x80, ∃ low < 0x80, b < 0x20 ∧
        escapeByte b = [backslash, 0x75, 0x30, 0x30, high, low] ∧
        unit? 0x30 0x30 high low = some b.toNat := by
  by_cases hquote : b = quote
  · exact .inr (.inl ⟨quote, by decide, by rw [hquote]; rfl, by rw [hquote]; rfl⟩)
  by_cases hbackslash : b = backslash
  · exact .inr (.inl ⟨backslash, by decide, by rw [hbackslash]; rfl, by rw [hbackslash]; rfl⟩)
  by_cases h : b < 0x20
  · obtain hletter | ⟨high, hhigh, low, hlow, hbyte, hunit⟩ := escapeByte_of_lt h
    · exact .inr (.inl hletter)
    · exact .inr (.inr ⟨high, hhigh, low, hlow, h, hbyte, hunit⟩)
  · exact .inl ⟨escapeByte_of_not_lt hquote hbackslash h, hquote, hbackslash, h⟩

theorem flatMap_escapeByte_of_le (h : ∀ b ∈ bs, 0x80 ≤ b) : bs.flatMap escapeByte = bs := by
  have hplain : ∀ b ∈ bs, escapeByte b = [b] := by
    intro b hb
    have hle : 128 ≤ b.toNat := h b hb
    refine escapeByte_of_not_lt ?_ ?_ fun hlt => ?_
    · rintro rfl
      exact absurd hle (by decide)
    · rintro rfl
      exact absurd hle (by decide)
    · have hlt' : b.toNat < 32 := hlt
      omega
  rw [List.flatMap_congr hplain, List.flatMap_singleton']

theorem isUtf8_escapeByte (h : b < 0x80) : IsUtf8 (escapeByte b) := by
  refine IsUtf8.of_ascii fun b' hb' => ?_
  obtain ⟨hbyte, -⟩ | ⟨e, he, hbyte, -⟩ | ⟨high, hhigh, low, hlow, -, hbyte, -⟩ :=
    escapeByte_cases b
  · rw [hbyte, List.mem_singleton] at hb'
    exact hb' ▸ h
  · rw [hbyte] at hb'
    simp only [List.mem_cons, List.not_mem_nil, or_false] at hb'
    obtain rfl | rfl := hb'
    · decide
    · exact he
  · rw [hbyte] at hb'
    simp only [List.mem_cons, List.not_mem_nil, or_false] at hb'
    obtain rfl | rfl | rfl | rfl | rfl | rfl := hb'
    · decide
    · decide
    · decide
    · decide
    · exact hhigh
    · exact hlow

theorem isUtf8_flatMap_escapeByte (cs : List Char) :
    IsUtf8 ((cs.flatMap String.utf8EncodeChar).flatMap escapeByte) := by
  induction cs with
  | nil => exact IsUtf8.nil
  | cons c cs ih =>
      rw [List.flatMap_cons, List.flatMap_append]
      refine IsUtf8.append ?_ ih
      obtain ⟨b, hb, hchar⟩ | hchar := utf8EncodeChar_cases c
      · rw [hchar, List.flatMap_singleton]
        exact isUtf8_escapeByte hb
      · rw [flatMap_escapeByte_of_le hchar]
        exact IsUtf8.char c

theorem isUtf8_writeText (s : String) : IsUtf8 (writeText s) := by
  rw [writeText, utf8_eq_flatMap]
  have hcontent := isUtf8_flatMap_escapeByte s.toList
  exact IsUtf8.cons (by decide) (hcontent.append (IsUtf8.cons (by decide) IsUtf8.nil))

theorem toNat_digit {c : Char} (h : c.isDigit = true) :
    c.toNat.toUInt8.toNat = c.toNat ∧ 48 ≤ c.toNat ∧ c.toNat ≤ 57 := by
  have hrange : 48 ≤ c.toNat ∧ c.toNat ≤ 57 := Char.isDigit_iff_toNat.1 h
  refine ⟨?_, hrange⟩
  rw [Nat.toUInt8, UInt8.toNat_ofNat', Nat.mod_eq_of_lt (by omega)]

theorem isUtf8_writeNatural (n : Nat) : IsUtf8 (writeNatural n) := by
  refine IsUtf8.of_ascii fun b hb => ?_
  obtain ⟨c, hc, rfl⟩ := List.mem_map.1 hb
  obtain ⟨hval, -, hle⟩ := toNat_digit (Nat.isDigit_of_mem_toDigits (by decide) (by decide) hc)
  rw [UInt8.lt_iff_toNat_lt, hval]
  exact Nat.lt_of_le_of_lt hle (by decide)

theorem isUtf8_writeInteger (n : Int) : IsUtf8 (writeInteger n) := by
  cases n with
  | ofNat n => exact isUtf8_writeNatural n
  | negSucc n => exact IsUtf8.cons (by decide) (isUtf8_writeNatural (n + 1))

mutual

theorem isUtf8_write : ∀ v : Value, IsUtf8 v.write
  | .null => by
      rw [Value.write]
      exact ⟨_, rfl⟩
  | .boolean b => by
      rw [Value.write]
      exact ⟨_, rfl⟩
  | .integer n => by
      rw [Value.write]
      exact isUtf8_writeInteger n
  | .text s => by
      rw [Value.write]
      exact isUtf8_writeText s
  | .list [] => by
      rw [Value.write]
      exact ⟨_, rfl⟩
  | .list (v :: items) => by
      have hopening := IsUtf8.cons (b := 0x5b) (by decide) (isUtf8_write v)
      have hclosing := IsUtf8.cons (b := 0x5d) (by decide) IsUtf8.nil
      rw [Value.write]
      exact (hopening.append (isUtf8_writeItems items)).append hclosing
  | .record [] => by
      rw [Value.write]
      exact IsUtf8.cons (by decide) (IsUtf8.cons (by decide) IsUtf8.nil)
  | .record ((k, v) :: fields) => by
      have hopening := IsUtf8.cons (b := 0x7b) (by decide) (isUtf8_writeText k)
      have hvalue := IsUtf8.cons (b := 0x3a) (by decide) (isUtf8_write v)
      have hclosing := IsUtf8.cons (b := 0x7d) (by decide) IsUtf8.nil
      rw [Value.write]
      exact ((hopening.append hvalue).append (isUtf8_writeFields fields)).append hclosing

theorem isUtf8_writeItems : ∀ items : List Value, IsUtf8 (Value.writeItems items)
  | [] => by
      rw [Value.writeItems]
      exact IsUtf8.nil
  | v :: items => by
      have hitem := IsUtf8.cons (b := 0x2c) (by decide) (isUtf8_write v)
      rw [Value.writeItems]
      exact hitem.append (isUtf8_writeItems items)

theorem isUtf8_writeFields : ∀ fields : List (String × Value), IsUtf8 (Value.writeFields fields)
  | [] => by
      rw [Value.writeFields]
      exact IsUtf8.nil
  | (k, v) :: fields => by
      have hkey := IsUtf8.cons (b := 0x2c) (by decide) (isUtf8_writeText k)
      have hvalue := IsUtf8.cons (b := 0x3a) (by decide) (isUtf8_write v)
      rw [Value.writeFields]
      exact (hkey.append hvalue).append (isUtf8_writeFields fields)

end

theorem utf8_compact (v : Value) : utf8 v.compact = v.write := by
  obtain ⟨s, hs⟩ := isUtf8_write v
  rw [Value.compact, ← hs, fromUTF8?_utf8, Option.getD_some]

example : (Value.text "a\"\u0001\té😀").compact = "\"a\\\"\\u0001\\té😀\"" := by cbv

end ReviewRota.Json
