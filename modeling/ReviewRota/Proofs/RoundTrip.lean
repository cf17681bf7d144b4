import ReviewRota.Json.Decode
import ReviewRota.Json.Models
import ReviewRota.Proofs.Encoding

/-!
# Reading what was written

Each reader takes from the compact text of a value exactly that value, whatever follows it in a
larger text.  So records read back from their text, and two records never have the same one.
-/

namespace ReviewRota

namespace Json

variable {α β : Type} {a : α} {s : String} {b c e h₁ h₂ h₃ h₄ : UInt8} {n limit unit : Nat}
  {bs read rest : Bytes} {v : Value}

/-! ## The content of a text -/

theorem content?_quote : content? read (quote :: rest) = some (read.reverse, rest) := by
  rw [content?.eq_def]
  rfl

theorem content?_plain (hquote : b ≠ quote) (hbackslash : b ≠ backslash) (h : ¬ b < 0x20) :
    content? read (b :: rest) = content? (b :: read) rest := by
  rw [content?.eq_def]
  simp only [if_neg hquote, if_neg hbackslash, if_neg h]

theorem content?_escaped (hc : escaped? e = some c) :
    content? read (backslash :: e :: rest) = content? (c :: read) rest := by
  have he : e ≠ 0x75 := by
    rintro rfl
    cases hc
  rw [content?.eq_def]
  simp only [if_neg he, hc]
  rfl

theorem content?_unit (read rest : List UInt8) (hunit : unit? h₁ h₂ h₃ h₄ = some unit)
    (h : unit < 0xd800) :
    content? read (backslash :: 0x75 :: h₁ :: h₂ :: h₃ :: h₄ :: rest) =
      content? ((encodeChar unit).reverse ++ read) rest := by
  have hleading : isLeading unit = false := by
    simp only [isLeading, Bool.and_eq_false_iff, decide_eq_false_iff_not]
    omega
  have htrailing : isTrailing unit = false := by
    simp only [isTrailing, Bool.and_eq_false_iff, decide_eq_false_iff_not]
    omega
  rw [content?.eq_def]
  simp only [hunit, hleading, htrailing]
  rfl

theorem content?_escapeByte (b : UInt8) :
    content? read (escapeByte b ++ rest) = content? (b :: read) rest := by
  obtain ⟨hbyte, hquote, hbackslash, h⟩ | ⟨e, -, hbyte, he⟩ |
    ⟨high, -, low, -, hlt, hbyte, hunit⟩ := escapeByte_cases b
  · rw [hbyte]
    exact content?_plain hquote hbackslash h
  · rw [hbyte]
    exact content?_escaped he
  · have hlt' : b.toNat < 32 := hlt
    have hascii : b < 0x80 := UInt8.lt_iff_toNat_lt.2 (Nat.lt_trans hlt' (by decide))
    have hcontent := content?_unit read rest hunit (by omega)
    rw [encodeChar_toNat hascii] at hcontent
    rw [hbyte]
    exact hcontent

theorem content?_flatMap (bs read rest : Bytes) :
    content? read (bs.flatMap escapeByte ++ quote :: rest) = some (read.reverse ++ bs, rest) := by
  induction bs generalizing read with
  | nil => rw [List.flatMap_nil, List.nil_append, content?_quote, List.append_nil]
  | cons b bs ih =>
      rw [List.flatMap_cons, List.append_assoc, content?_escapeByte, ih, List.reverse_cons,
        List.append_assoc, List.singleton_append]

theorem text?_flatMap (s : String) (rest : Bytes) :
    text? ((utf8 s).flatMap escapeByte ++ quote :: rest) = some (s, rest) := by
  rw [text?, content?_flatMap, List.reverse_nil, List.nil_append]
  change (String.fromUTF8? ⟨(utf8 s).toArray⟩).bind (fun text => some (text, rest)) = _
  rw [fromUTF8?_utf8, Option.bind_some]

/-! ## The digits of a number -/

def Delimited (rest : Bytes) : Prop := ∀ b ∈ rest.head?, b = 0x2c ∨ b = 0x5d ∨ b = 0x7d

theorem Delimited.nil : Delimited [] := fun _ hb => by cases hb

theorem Delimited.cons (h : b = 0x2c ∨ b = 0x5d ∨ b = 0x7d) : Delimited (b :: rest) := by
  rintro b' hb'
  cases hb'
  exact h

theorem isDigit_digit {c : Char} (h : c.isDigit = true) : isDigit c.toNat.toUInt8 = true := by
  obtain ⟨hval, hrange⟩ := toNat_digit h
  simp only [isDigit, Bool.and_eq_true, decide_eq_true_eq, UInt8.le_iff_toNat_le, hval]
  exact hrange

theorem isDigit_of_mem_writeNatural (hb : b ∈ writeNatural n) : isDigit b = true := by
  obtain ⟨c, hc, rfl⟩ := List.mem_map.1 hb
  exact isDigit_digit (Nat.isDigit_of_mem_toDigits (by decide) (by decide) hc)

theorem writeNatural_ne_nil : writeNatural n ≠ [] := by
  rw [writeNatural, ne_eq, List.map_eq_nil_iff]
  exact Nat.toDigits_ne_nil

theorem le_ofDigitChars (cs : List Char) (n : Nat) : n ≤ Nat.ofDigitChars 10 cs n := by
  rw [Nat.ofDigitChars_eq_ofDigitChars_zero]
  have hpos : 1 * n ≤ 10 ^ cs.length * n := Nat.mul_le_mul_right n (Nat.one_le_pow' _ 9)
  omega

theorem accumulate_map {cs : List Char} (hcs : ∀ c ∈ cs, c.isDigit = true)
    (h : Nat.ofDigitChars 10 cs n < limit) :
    accumulate limit n (cs.map fun c => c.toNat.toUInt8) = (Nat.ofDigitChars 10 cs n, 0) := by
  induction cs generalizing n with
  | nil => rfl
  | cons c cs ih =>
      obtain ⟨hval, -⟩ := toNat_digit (hcs c List.mem_cons_self)
      have hnext : n * 10 + (c.toNat.toUInt8.toNat - 0x30) = 10 * n + (c.toNat - '0'.toNat) := by
        rw [hval, Nat.mul_comm]
        rfl
      rw [Nat.ofDigitChars_cons] at h ⊢
      rw [List.map_cons, accumulate, hnext, if_pos (Nat.lt_of_le_of_lt (le_ofDigitChars _ _) h)]
      exact ih (fun c' hc' => hcs c' (List.mem_cons_of_mem c hc')) h

theorem accumulate_writeNatural (h : n < limit) :
    accumulate limit 0 (writeNatural n) = (n, 0) := by
  have hdigits : ∀ c ∈ Nat.toDigits 10 n, c.isDigit = true :=
    fun c hc => Nat.isDigit_of_mem_toDigits (by decide) (by decide) hc
  rw [writeNatural, accumulate_map hdigits (by rwa [Nat.ofDigitChars_ten_toDigits]),
    Nat.ofDigitChars_ten_toDigits]

theorem head?_toDigits_ne (h : 0 < n) : (Nat.toDigits 10 n).head? ≠ some '0' := by
  induction n using Nat.base_induction 10 (by decide) with
  | single m hm =>
      rw [Nat.toDigits_of_lt_base hm]
      interval_cases m <;> decide
  | digit m k hk hm ih =>
      rw [← Nat.toDigits_append_toDigits (by decide) hm hk,
        List.head?_append_of_ne_nil _ Nat.toDigits_ne_nil]
      exact ih hm

theorem length_writeNatural (h : (writeNatural n).head? = some 0x30) :
    (writeNatural n).length = 1 := by
  obtain rfl | hn := Nat.eq_zero_or_pos n
  · rfl
  · obtain ⟨c, hc, hzero⟩ : ∃ c, (Nat.toDigits 10 n).head? = some c ∧ c.toNat.toUInt8 = 0x30 := by
      rwa [writeNatural, List.head?_map, Option.map_eq_some_iff] at h
    obtain ⟨hval, -⟩ := toNat_digit (Nat.isDigit_of_mem_toDigits (by decide) (by decide)
      (List.mem_of_mem_head? hc))
    rw [hzero] at hval
    have hchar : c = '0' := Char.toNat_inj.1 hval.symm
    exact absurd (hchar ▸ hc) (head?_toDigits_ne hn)

theorem span_writeNatural (hrest : Delimited rest) :
    (writeNatural n ++ rest).takeWhile isDigit = writeNatural n ∧
      (writeNatural n ++ rest).dropWhile isDigit = rest := by
  have hdigits : ∀ b ∈ writeNatural n, isDigit b = true := fun b => isDigit_of_mem_writeNatural
  rw [List.takeWhile_append_of_pos hdigits, List.dropWhile_append_of_pos hdigits]
  cases rest with
  | nil => exact ⟨List.append_nil _, rfl⟩
  | cons b rest =>
      have hb : ¬ isDigit b = true := by
        obtain rfl | rfl | rfl := hrest b rfl <;> decide
      exact ⟨by rw [List.takeWhile_cons_of_neg hb, List.append_nil],
        List.dropWhile_cons_of_neg hb⟩

theorem number?_writeNatural (positive : Bool) (h : n < UInt64.size) (hrest : Delimited rest)
    (hsign : positive = true ∨ 0 < n ∧ n ≤ Nat.pow 2 63) :
    number? positive (writeNatural n ++ rest) =
      some (if positive then .natural n else .negative n, rest) := by
  obtain ⟨htake, hdrop⟩ := span_writeNatural (n := n) hrest
  have hdigits : ((writeNatural n).isEmpty ||
      ((writeNatural n).head? = some 0x30 && (writeNatural n).length ≠ 1)) = false := by
    rw [Bool.or_eq_false_iff, List.isEmpty_eq_false_iff]
    refine ⟨writeNatural_ne_nil, ?_⟩
    simpa using length_writeNatural
  have hwhole : number? positive (writeNatural n ++ rest) =
      if positive then some (.natural n, rest)
      else if 0 < n && n ≤ Nat.pow 2 63 then some (.negative n, rest)
      else do return (← floating? false n 0, rest) := by
    rw [number?, htake, hdrop, accumulate_writeNatural h]
    simp only [hdigits]
    cases rest with
    | nil => rfl
    | cons b rest => obtain rfl | rfl | rfl := hrest b rfl <;> rfl
  rw [hwhole]
  cases positive with
  | true => rfl
  | false =>
      obtain ⟨hpos, hle⟩ := hsign.resolve_left Bool.false_ne_true
      rw [if_neg Bool.false_ne_true, decide_eq_true hpos, decide_eq_true hle]
      rfl

/-- A reader takes `a` from the text of `v`, whatever the text is a part of. -/
def Reads (reader : Reader α) (v : Value) (a : α) : Prop :=
  ∀ rest, Delimited rest → reader (v.write ++ rest) = .ok (a, rest)

theorem skipBlank_cons (h : isBlankByte b = false) : skipBlank (b :: rest) = b :: rest :=
  List.dropWhile_cons_of_neg (by rw [h]; exact Bool.false_ne_true)

theorem reads_text (s : String) : Reads readText (.text s) s := by
  intro rest _
  have htext : (Value.text s).write ++ rest =
      quote :: ((utf8 s).flatMap escapeByte ++ quote :: rest) := by
    rw [Value.write, writeText, List.cons_append, List.cons_append, List.append_assoc,
      List.singleton_append]
  rw [htext, readText, readTextAs, skipBlank_cons rfl]
  simp only [if_pos, text?_flatMap]
  rfl

theorem after?_append (word rest : Bytes) : after? word (word ++ rest) = some rest := by
  induction word with
  | nil => rfl
  | cons w word ih => rw [List.cons_append, after?, if_pos rfl, ih]

theorem reads_boolean (b : Bool) : Reads readBoolean (.boolean b) b := by
  intro rest _
  have htrue : utf8 "true" = 0x74 :: utf8 "rue" := by cbv
  have hfalse : utf8 "false" = 0x66 :: utf8 "alse" := by cbv
  cases b with
  | true =>
      have hread := after?_append (utf8 "rue") rest
      rw [Value.write, if_pos rfl, htrue, List.cons_append, readBoolean, skipBlank_cons rfl]
      simp only [hread]
      rfl
  | false =>
      have hread := after?_append (utf8 "alse") rest
      rw [Value.write, if_neg Bool.false_ne_true, hfalse, List.cons_append, readBoolean,
        skipBlank_cons rfl]
      simp only [hread]
      rfl

theorem exists_writeNatural_eq_cons (n : Nat) :
    ∃ d ds, writeNatural n = d :: ds ∧ isDigit d = true := by
  obtain ⟨d, ds, hcons⟩ := List.exists_cons_of_ne_nil (writeNatural_ne_nil (n := n))
  have hd : d ∈ writeNatural n := hcons ▸ List.mem_cons_self
  exact ⟨d, ds, hcons, isDigit_of_mem_writeNatural hd⟩

theorem ne_of_isDigit (h : isDigit b = true) (hc : isDigit c = false) : b ≠ c := by
  rintro rfl
  exact absurd h (by rw [hc]; exact Bool.false_ne_true)

theorem isBlankByte_of_isDigit (h : isDigit b = true) : isBlankByte b = false := by
  simp only [isBlankByte, Bool.or_eq_false_iff, decide_eq_false_iff_not]
  exact ⟨⟨⟨ne_of_isDigit h rfl, ne_of_isDigit h rfl⟩, ne_of_isDigit h rfl⟩, ne_of_isDigit h rfl⟩

section

variable {wanted : Wanted} {least greatest : Int}

theorem readInteger_natural (hd : isDigit b = true)
    (hnumber : number? true (b :: bs) = some (.natural n, rest)) (hn : (n : Int) ≤ greatest) :
    readInteger wanted least greatest (b :: bs) = .ok ((n : Int), rest) := by
  have hminus : b ≠ 0x2d := ne_of_isDigit hd rfl
  rw [readInteger, skipBlank_cons (isBlankByte_of_isDigit hd)]
  simp only [if_pos hd, hnumber, if_pos hn]

theorem readInteger_negative (hnumber : number? false bs = some (.negative n, rest))
    (hn : least ≤ -(n : Int)) :
    readInteger wanted least greatest (0x2d :: bs) = .ok (-(n : Int), rest) := by
  rw [readInteger, skipBlank_cons rfl]
  simp only [hnumber, if_pos hn]

theorem reads_integer {n : Int} (hleast : least ≤ n) (hgreatest : n ≤ greatest)
    (hlow : -2 ^ 63 ≤ n) (hhigh : n < 2 ^ 63) :
    Reads (readInteger wanted least greatest) (.integer n) n := by
  intro rest hrest
  rw [Value.write]
  cases n with
  | ofNat n =>
      simp only [Int.ofNat_eq_natCast] at hleast hgreatest hlow hhigh ⊢
      have hlt : n < UInt64.size := by
        rw [UInt64.size]
        omega
      have hnumber := number?_writeNatural true hlt hrest (.inl rfl)
      obtain ⟨d, ds, hcons, hd⟩ := exists_writeNatural_eq_cons n
      change readInteger wanted least greatest (writeNatural n ++ rest) = _
      rw [hcons, List.cons_append] at hnumber ⊢
      exact readInteger_natural hd hnumber hgreatest
  | negSucc n =>
      have hpow : Nat.pow 2 63 = 9223372036854775808 := rfl
      have hlt : n + 1 < UInt64.size := by
        rw [UInt64.size]
        omega
      have hnumber := number?_writeNatural false hlt hrest
        (.inr ⟨Nat.succ_pos n, by rw [hpow]; omega⟩)
      exact readInteger_negative hnumber (by omega)

end

theorem reads_int64 (t : Int64) : Reads readInt64 (.integer t.toInt) t := by
  intro rest hrest
  have hinteger : Reads (readInteger .int64 Int64.minValue.toInt Int64.maxValue.toInt)
      (.integer t.toInt) t.toInt :=
    reads_integer t.minValue_le_toInt t.toInt_le t.le_toInt t.toInt_lt
  rw [readInt64, hinteger rest hrest]
  change Except.ok (Int64.ofInt t.toInt, rest) = _
  rw [Int64.ofInt_toInt]

theorem reads_map {reader : Reader α} (h : Reads reader v a) (f : α → β) :
    Reads (reader.map f) v (f a) := by
  intro rest hrest
  rw [Reader.map, h rest hrest]
  rfl

theorem exists_writeInteger_eq_cons (n : Int) : ∃ b bs, writeInteger n = b :: bs ∧
    (b = 0x2d ∨ isDigit b = true) := by
  cases n with
  | ofNat n =>
      obtain ⟨d, ds, hcons, hd⟩ := exists_writeNatural_eq_cons n
      exact ⟨d, ds, hcons, .inr hd⟩
  | negSucc n => exact ⟨0x2d, writeNatural (n + 1), rfl, .inl rfl⟩

theorem reads_nullable {reader : Reader α} {n : Int} (h : Reads reader (.integer n) a) :
    Reads (readNullable reader) (.integer n) (some a) := by
  intro rest hrest
  have hread := h rest hrest
  obtain ⟨b, bs, hcons, hb⟩ := exists_writeInteger_eq_cons n
  have hnull : b ≠ 0x6e := by
    obtain rfl | hdigit := hb
    · decide
    · exact ne_of_isDigit hdigit rfl
  have hblank : isBlankByte b = false := by
    obtain rfl | hdigit := hb
    · rfl
    · exact isBlankByte_of_isDigit hdigit
  rw [Value.write, hcons, List.cons_append] at hread ⊢
  rw [readNullable, skipBlank_cons hblank]
  split
  · next hcons => exact absurd (List.cons.inj hcons).1 hnull
  · rw [hread]
    rfl

/-! ## Lists -/

theorem exists_write_eq_cons (v : Value) :
    ∃ b bs, v.write = b :: bs ∧ isBlankByte b = false ∧ b ≠ 0x5d := by
  cases v with
  | null => exact ⟨0x6e, utf8 "ull", by rw [Value.write]; cbv, rfl, by decide⟩
  | boolean b =>
      cases b with
      | true => exact ⟨0x74, utf8 "rue", by rw [Value.write]; cbv, rfl, by decide⟩
      | false => exact ⟨0x66, utf8 "alse", by rw [Value.write]; cbv, rfl, by decide⟩
  | integer n =>
      obtain ⟨b, bs, hcons, rfl | hdigit⟩ := exists_writeInteger_eq_cons n
      · exact ⟨0x2d, bs, by rw [Value.write, hcons], rfl, by decide⟩
      · exact ⟨b, bs, by rw [Value.write, hcons], isBlankByte_of_isDigit hdigit,
          ne_of_isDigit hdigit rfl⟩
  | text s => exact ⟨quote, _, by rw [Value.write, writeText, List.cons_append], rfl, by decide⟩
  | list items =>
      cases items with
      | nil => exact ⟨0x5b, [0x5d], by rw [Value.write]; cbv, rfl, by decide⟩
      | cons v items => exact ⟨0x5b, _, by rw [Value.write]; rfl, rfl, by decide⟩
  | record fields =>
      cases fields with
      | nil => exact ⟨0x7b, [0x7d], by rw [Value.write], rfl, by decide⟩
      | cons field fields => exact ⟨0x7b, _, by rw [Value.write]; rfl, rfl, by decide⟩

theorem length_write_pos (v : Value) : 0 < v.write.length := by
  obtain ⟨b, bs, hcons, -⟩ := exists_write_eq_cons v
  rw [hcons]
  exact Nat.succ_pos _

theorem delimited_writeItems (items : List Value) (rest : Bytes) :
    Delimited (Value.writeItems items ++ 0x5d :: rest) := by
  cases items with
  | nil =>
      rw [Value.writeItems]
      exact Delimited.cons (.inr (.inl rfl))
  | cons v items =>
      rw [Value.writeItems]
      exact Delimited.cons (.inl rfl)

theorem length_le_length_writeItems (items : List Value) :
    items.length ≤ (Value.writeItems items).length := by
  induction items with
  | nil => exact Nat.zero_le _
  | cons v items ih =>
      rw [Value.writeItems, List.length_append, List.length_cons, List.length_cons]
      omega

theorem nextItem_first (v : Value) (rest : Bytes) :
    nextItem true (v.write ++ rest) = .ok (some (v.write ++ rest)) := by
  obtain ⟨b, bs, hcons, hblank, hb⟩ := exists_write_eq_cons v
  rw [hcons, List.cons_append, nextItem, skipBlank_cons hblank]
  simp only [if_pos]

theorem nextItem_comma (v : Value) (rest : Bytes) :
    nextItem false (0x2c :: (v.write ++ rest)) = .ok (some (v.write ++ rest)) := by
  obtain ⟨b, bs, hcons, hblank, hb⟩ := exists_write_eq_cons v
  rw [nextItem, skipBlank_cons rfl]
  change (if false = true then _ else if (0x2c : UInt8) = 0x2c then _ else _) = _
  rw [if_neg Bool.false_ne_true, if_pos rfl, hcons, List.cons_append, skipBlank_cons hblank]
  split
  · next hnil => cases hnil
  · next hbracket => exact absurd (List.cons.inj hbracket).1 hb
  · rfl

section

variable {reader : Reader α} {fuel index : Nat} {read as : List α} {toJson : α → Value}

theorem readItems_close : readItems reader (fuel + 1) index read (0x5d :: rest) =
    .ok (read.reverse, rest) := by
  rfl

theorem readItems_item {isFirst : Bool} (hfirst : decide (index = 0) = isFirst)
    (hnext : nextItem isFirst bs = .ok (some (v.write ++ rest))) (h : Reads reader v a)
    (hrest : Delimited rest) :
    readItems reader (fuel + 1) index read bs =
      readItems reader fuel (index + 1) (a :: read) rest := by
  rw [readItems, hfirst, hnext]
  change (within (.index index) reader (v.write ++ rest)).bind _ = _
  rw [within, h rest hrest]
  rfl

theorem readItems_writeItems (h : ∀ a ∈ as, Reads reader (toJson a) a) (hindex : index ≠ 0)
    (hfuel : as.length < fuel) :
    readItems reader fuel index read (Value.writeItems (as.map toJson) ++ 0x5d :: rest) =
      .ok (read.reverse ++ as, rest) := by
  induction as generalizing fuel index read with
  | nil =>
      obtain ⟨fuel, rfl⟩ := Nat.exists_eq_add_one_of_ne_zero (Nat.ne_zero_of_lt hfuel)
      rw [List.map_nil, Value.writeItems, List.nil_append, List.append_nil]
      exact readItems_close
  | cons a as ih =>
      obtain ⟨fuel, rfl⟩ := Nat.exists_eq_add_one_of_ne_zero (Nat.ne_zero_of_lt hfuel)
      rw [List.map_cons, Value.writeItems, List.cons_append, List.cons_append, List.append_assoc,
        readItems_item (decide_eq_false hindex) (nextItem_comma _ _) (h a List.mem_cons_self)
          (delimited_writeItems _ _),
        ih (fun a' ha' => h a' (List.mem_cons_of_mem a ha')) (Nat.succ_ne_zero index)
          (Nat.lt_of_succ_lt_succ hfuel),
        List.reverse_cons, List.append_assoc, List.singleton_append]

theorem reads_list (h : ∀ a ∈ as, Reads reader (toJson a) a) :
    Reads (readList reader) (.list (as.map toJson)) as := by
  intro rest hrest
  cases as with
  | nil =>
      have htext : (Value.list []).write = [0x5b, 0x5d] := by
        rw [Value.write]
        cbv
      rw [List.map_nil, htext]
      rfl
  | cons a as =>
      let tail := Value.writeItems (as.map toJson) ++ 0x5d :: rest
      have htext : (Value.list ((a :: as).map toJson)).write ++ rest =
          0x5b :: ((toJson a).write ++ tail) := by
        rw [List.map_cons, Value.write, List.append_assoc, List.append_assoc, List.cons_append]
        rfl
      have hfuel : as.length < ((toJson a).write ++ tail).length := by
        have hpos := length_write_pos (toJson a)
        have hle := length_le_length_writeItems (as.map toJson)
        rw [List.length_map] at hle
        simp only [tail, List.length_append]
        omega
      rw [htext, readList, skipBlank_cons rfl]
      change readItems reader (((toJson a).write ++ tail).length + 1) 0 []
        ((toJson a).write ++ tail) = _
      rw [readItems_item (decide_eq_true (Eq.refl 0)) (nextItem_first _ _) (h a List.mem_cons_self)
          (delimited_writeItems _ _),
        readItems_writeItems (fun a' ha' => h a' (List.mem_cons_of_mem a ha'))
          Nat.one_ne_zero hfuel]
      rfl

end

/-! ## Records -/

section

variable {ρ : Type} {shape : Shape ρ α} {draft final : ρ} {key : String} {field : Field ρ}
  {put : ρ → ρ} {fields : List (String × Value)} {fuel : Nat} {isFirst : Bool}

/-- The fields of a record are read into a draft one after the other, each of them known and for
the first time. -/
inductive Fills (shape : Shape ρ α) : ρ → List (String × Value) → ρ → Prop where
  | nil (draft : ρ) : Fills shape draft [] draft
  | cons {draft final : ρ} {key name : String} {defaulted : Bool} {given : ρ → Bool}
      {reader : Reader (ρ → ρ)} {put : ρ → ρ} {v : Value} {fields : List (String × Value)}
      (hfield : shape.fields.find? (·.name = key) = some ⟨name, defaulted, given, reader⟩)
      (hgiven : given draft = false) (hread : Reads reader v put)
      (h : Fills shape (put draft) fields final) : Fills shape draft ((key, v) :: fields) final

theorem Fills.next {name : String} {defaulted : Bool} {given : ρ → Bool} {reader : Reader β}
    {b : β} {f : β → ρ → ρ}
    (hfield : shape.fields.find? (·.name = key) = some ⟨name, defaulted, given, reader.map f⟩)
    (hgiven : given draft = false) (hread : Reads reader v b)
    (h : Fills shape (f b draft) fields final) : Fills shape draft ((key, v) :: fields) final :=
  .cons hfield hgiven (reads_map hread f) h

theorem delimited_writeFields (fields : List (String × Value)) (rest : Bytes) :
    Delimited (Value.writeFields fields ++ 0x7d :: rest) := by
  cases fields with
  | nil =>
      rw [Value.writeFields]
      exact Delimited.cons (.inr (.inr rfl))
  | cons field fields =>
      rw [Value.writeFields]
      exact Delimited.cons (.inl rfl)

theorem length_le_length_writeFields (fields : List (String × Value)) :
    fields.length ≤ (Value.writeFields fields).length := by
  induction fields with
  | nil => exact Nat.zero_le _
  | cons field fields ih =>
      rw [Value.writeFields, List.length_append, List.length_append, List.length_cons,
        List.length_cons]
      omega

def fieldText (key : String) (v : Value) (rest : Bytes) : Bytes :=
  (utf8 key).flatMap escapeByte ++ quote :: 0x3a :: (v.write ++ rest)

theorem writeFields_cons : Value.writeFields ((key, v) :: fields) ++ 0x7d :: rest =
    0x2c :: quote :: fieldText key v (Value.writeFields fields ++ 0x7d :: rest) := by
  rw [Value.writeFields, writeText, fieldText]
  simp only [List.cons_append, List.append_assoc, List.nil_append]

theorem readFields_field (hfield : shape.fields.find? (·.name = key) = some field)
    (hgiven : field.given draft = false) (hread : Reads field.read v put)
    (hnext : nextKey isFirst bs = .ok (some (fieldText key v rest))) (hrest : Delimited rest) :
    shape.readFields (fuel + 1) isFirst draft bs =
      shape.readFields fuel false (put draft) rest := by
  have hvalue : within (.field key) field.read (v.write ++ rest) = .ok (put, rest) := by
    rw [within, hread rest hrest]
    rfl
  rw [Shape.readFields, hnext]
  change (orMalformed (text? (fieldText key v rest))).bind _ = _
  rw [fieldText, text?_flatMap, orMalformed]
  dsimp only [Except.bind]
  rw [hfield]
  change (if field.given draft = true then _ else _) = _
  rw [hgiven, if_neg Bool.false_ne_true]
  change (within (.field key) field.read (v.write ++ rest)).bind _ = _
  rw [hvalue]
  rfl

theorem readFields_writeFields (h : Fills shape draft fields final)
    (hfuel : fields.length < fuel) :
    shape.readFields fuel false draft (Value.writeFields fields ++ 0x7d :: rest) =
      .ok (final, 0x7d :: rest) := by
  induction h generalizing fuel with
  | nil draft =>
      obtain ⟨fuel, rfl⟩ := Nat.exists_eq_add_one_of_ne_zero (Nat.ne_zero_of_lt hfuel)
      rw [Value.writeFields, List.nil_append]
      rfl
  | cons hfield hgiven hread h ih =>
      obtain ⟨fuel, rfl⟩ := Nat.exists_eq_add_one_of_ne_zero (Nat.ne_zero_of_lt hfuel)
      rw [writeFields_cons,
        readFields_field hfield hgiven hread rfl (delimited_writeFields _ _),
        ih (Nat.lt_of_succ_lt_succ hfuel)]

theorem exists_write_record (h : Fills shape draft fields final) (rest : Bytes) :
    ∃ text, (Value.record fields).write ++ rest = 0x7b :: text ∧
      shape.readFields (text.length + 1) true draft text = .ok (final, 0x7d :: rest) := by
  cases h with
  | nil =>
      refine ⟨0x7d :: rest, ?_, rfl⟩
      rw [Value.write]
      rfl
  | @cons _ _ key _ _ _ _ _ v fields hfield hgiven hread h =>
      refine ⟨quote :: fieldText key v (Value.writeFields fields ++ 0x7d :: rest), ?_, ?_⟩
      · rw [Value.write, writeText, fieldText]
        simp only [List.cons_append, List.append_assoc, List.nil_append]
      · rw [readFields_field hfield hgiven hread rfl (delimited_writeFields _ _),
          readFields_writeFields h]
        have hle := length_le_length_writeFields fields
        simp only [fieldText, List.length_cons, List.length_append]
        omega

theorem reads_record (h : Fills shape shape.empty fields final)
    (hbuild : shape.build final = .ok a) : Reads shape.read (.record fields) a := by
  intro rest _
  obtain ⟨text, htext, hread⟩ := exists_write_record h rest
  rw [htext, Shape.read, skipBlank_cons rfl]
  change (shape.readFields (text.length + 1) true shape.empty text).bind _ = _
  rw [hread]
  change (shape.finish final).bind _ = _
  rw [Shape.finish, hbuild]
  rfl

end

end Json

open Json

theorem reads_status (s : Status) : Reads Status.read s.toJson s := by
  intro rest _
  have htext : s.toJson.write ++ rest =
      quote :: ((utf8 s.text).flatMap escapeByte ++ quote :: rest) := by
    rw [Status.toJson, Value.write, writeText, List.cons_append, List.cons_append,
      List.append_assoc, List.singleton_append]
  have hread := text?_flatMap s.text rest
  rw [htext, Status.read, skipBlank_cons rfl]
  simp only [quote] at hread ⊢
  rw [hread, orMalformed]
  dsimp only [bind, Except.bind]
  rw [Status.ofText_text]
  rfl

theorem reads_user (u : User) : Reads User.shape.read u.toJson u :=
  reads_record (.next rfl rfl (reads_text _) <| .next rfl rfl (reads_text _) <|
    .next rfl rfl (reads_text _) <| .next rfl rfl (reads_boolean _) <| .nil _) rfl

theorem reads_member (m : Member) : Reads Member.shape.read m.toJson m :=
  reads_record (.next rfl rfl (reads_text _) <| .next rfl rfl (reads_text _) <|
    .next rfl rfl (reads_boolean _) <| .nil _) rfl

theorem reads_team (t : Team) : Reads Team.shape.read t.toJson t := by
  have hmembers : Reads (readList Member.shape.read) (.list (t.members.map Member.toJson))
      t.members := reads_list fun m _ => reads_member m
  exact reads_record (.next rfl rfl (reads_text _) <| .next rfl rfl hmembers <| .nil _) rfl

theorem reads_pullRequest (p : PullRequest) : Reads PullRequest.shape.read p.toJson p := by
  have hreviewers : Reads (readList readText) (Value.texts p.reviewers) p.reviewers :=
    reads_list fun s _ => reads_text s
  obtain ⟨id, name, authorId, status, reviewers, createdAt, mergedAt⟩ := p
  cases mergedAt with
  | none =>
      exact reads_record (.next rfl rfl (reads_text _) <| .next rfl rfl (reads_text _) <|
        .next rfl rfl (reads_text _) <| .next rfl rfl (reads_status _) <|
        .next rfl rfl hreviewers <| .next rfl rfl (reads_int64 _) <| .nil _) rfl
  | some t =>
      exact reads_record (.next rfl rfl (reads_text _) <| .next rfl rfl (reads_text _) <|
        .next rfl rfl (reads_text _) <| .next rfl rfl (reads_status _) <|
        .next rfl rfl hreviewers <| .next rfl rfl (reads_int64 _) <|
        .next rfl rfl (reads_nullable (reads_int64 t)) <| .nil _) rfl

/-- Every value reads back from its compact text, and no other value has the same one. -/
structure Faithful {α : Type} (toJson : α → Value) (reader : Reader α) : Prop where
  reads : ∀ a, readAll reader (utf8 (toJson a).compact) = .ok a
  injective : ∀ a b, (toJson a).compact = (toJson b).compact → a = b

theorem faithful_of_reads {α : Type} {toJson : α → Value} {reader : Reader α}
    (h : ∀ a, Reads reader (toJson a) a) : Faithful toJson reader := by
  have hreads : ∀ a, readAll reader (utf8 (toJson a).compact) = .ok a := by
    intro a
    have hread := h a [] Delimited.nil
    rw [List.append_nil] at hread
    rw [utf8_compact, readAll, hread]
    rfl
  refine ⟨hreads, fun a b heq => ?_⟩
  have hsame : (.ok a : Except Failure α) = .ok b := by rw [← hreads a, heq, hreads b]
  exact Except.ok.inj hsame

theorem round_trip :
    Faithful User.toJson User.shape.read ∧ Faithful Member.toJson Member.shape.read ∧
      Faithful Team.toJson Team.shape.read ∧
      Faithful PullRequest.toJson PullRequest.shape.read ∧
      ∀ p : PullRequest, ∃ fields, p.toJson = .record fields ∧
        ("merged_at" ∈ fields.map Prod.fst ↔ p.mergedAt.isSome) := by
  refine ⟨faithful_of_reads reads_user, faithful_of_reads reads_member,
    faithful_of_reads reads_team, faithful_of_reads reads_pullRequest, fun p => ⟨_, rfl, ?_⟩⟩
  cases p.mergedAt with
  | none => simp [Value.optional]
  | some t => simp [Value.optional]

end ReviewRota
