import PlantEconomics.Text.Utf8
import PlantEconomics.Proofs.Text.Trimming

/-!
# Texts as bytes

The bytes that spell a text are read back as the text. A character of ASCII is spelled by one byte
and any other by bytes beyond ASCII, so that trimming the bytes of the blanks among them is
trimming the text of the blanks of ASCII; trimming the rest of the blanks afterwards leaves what
trimming the whole text does.

  * `Utf8.decode_encode`: reading undoes spelling;
  * `Utf8.trimBy_encode`: trimming bytes is trimming characters;
  * `Text.trim_asciiTrim`: two trimmings are one.
-/

namespace PlantEconomics

namespace Utf8

/-- The bytes that spell a text. -/
def encode (text : String) : List UInt8 := text.toList.flatMap String.utf8EncodeChar

/-! ## §1. Bytes as numbers -/

theorem toNat_ofNat {n : Nat} (h : n < 256) : (UInt8.ofNat n).toNat = n :=
  UInt8.toNat_ofNat_of_lt' h

theorem not_lt_of_le {b : UInt8} (h : 0x80 ≤ b.toNat) : ¬b < 0x80 := fun less =>
  absurd (UInt8.lt_iff_toNat_lt.1 less) (Nat.not_lt.2 h)

theorem between_iff {lo b hi : UInt8} :
    (lo ≤ b && b ≤ hi) = true ↔ lo.toNat ≤ b.toNat ∧ b.toNat ≤ hi.toNat := by
  rw [Bool.and_eq_true, decide_eq_true_iff, decide_eq_true_iff, UInt8.le_iff_toNat_le,
    UInt8.le_iff_toNat_le]

theorem continues_iff {b : UInt8} : continues b = true ↔ 0x80 ≤ b.toNat ∧ b.toNat ≤ 0xBF :=
  between_iff

theorem secondOfThree_iff {b c : UInt8} : secondOfThree b c = true ↔
    (if b.toNat = 0xE0 then 0xA0 else 0x80) ≤ c.toNat ∧
      c.toNat ≤ (if b.toNat = 0xED then 0x9F else 0xBF) := by
  unfold secondOfThree
  simp only [← UInt8.toNat_inj, beq_iff_eq, UInt8.reduceToNat]
  split
  · next first => simp [first, UInt8.le_iff_toNat_le]
  · split <;> simp [UInt8.le_iff_toNat_le, continues_iff]

theorem secondOfFour_iff {b c : UInt8} : secondOfFour b c = true ↔
    (if b.toNat = 0xF0 then 0x90 else 0x80) ≤ c.toNat ∧
      c.toNat ≤ (if b.toNat = 0xF4 then 0x8F else 0xBF) := by
  unfold secondOfFour
  simp only [← UInt8.toNat_inj, beq_iff_eq, UInt8.reduceToNat]
  split
  · next first => simp [first, UInt8.le_iff_toNat_le]
  · split <;> simp [UInt8.le_iff_toNat_le, continues_iff]

/-! ## §2. Reading one character -/

section Character

variable (at_ : Nat) {b c d e : UInt8} (rest : List UInt8)

theorem decodeFrom_one (hb : b.toNat < 0x80) :
    decodeFrom at_ (b :: rest) = consChar b.toNat (decodeFrom (at_ + 1) rest) := by
  rw [decodeFrom.eq_def]
  dsimp only
  rw [if_pos (UInt8.lt_iff_toNat_lt.2 hb)]

theorem decodeFrom_two (hb : 0xC2 ≤ b.toNat ∧ b.toNat ≤ 0xDF) (hc : continues c = true) :
    decodeFrom at_ (b :: c :: rest) =
      consChar (b.toNat % 32 * 64 + payload c) (decodeFrom (at_ + 2) rest) := by
  have two : (0xC2 ≤ b && b ≤ 0xDF) = true := between_iff.2 hb
  rw [decodeFrom.eq_def]
  dsimp only
  rw [if_neg (not_lt_of_le (by omega)), if_pos two, if_pos hc]

theorem decodeFrom_three (hb : 0xE0 ≤ b.toNat ∧ b.toNat ≤ 0xEF) (hc : secondOfThree b c = true)
    (hd : continues d = true) :
    decodeFrom at_ (b :: c :: d :: rest) =
      consChar (b.toNat % 16 * 4096 + payload c * 64 + payload d) (decodeFrom (at_ + 3) rest) := by
  have notTwo : ¬(0xC2 ≤ b && b ≤ 0xDF) = true := fun two => by
    have : b.toNat ≤ 0xDF := (between_iff.1 two).2
    omega
  have three : (0xE0 ≤ b && b ≤ 0xEF) = true := between_iff.2 hb
  rw [decodeFrom.eq_def]
  dsimp only
  rw [if_neg (not_lt_of_le (by omega)), if_neg notTwo, if_pos three, hc, hd]
  rfl

theorem decodeFrom_four (hb : 0xF0 ≤ b.toNat ∧ b.toNat ≤ 0xF4) (hc : secondOfFour b c = true)
    (hd : continues d = true) (he : continues e = true) :
    decodeFrom at_ (b :: c :: d :: e :: rest) =
      consChar (b.toNat % 8 * 262144 + payload c * 4096 + payload d * 64 + payload e)
        (decodeFrom (at_ + 4) rest) := by
  have notTwo : ¬(0xC2 ≤ b && b ≤ 0xDF) = true := fun two => by
    have : b.toNat ≤ 0xDF := (between_iff.1 two).2
    omega
  have notThree : ¬(0xE0 ≤ b && b ≤ 0xEF) = true := fun three => by
    have : b.toNat ≤ 0xEF := (between_iff.1 three).2
    omega
  have four : (0xF0 ≤ b && b ≤ 0xF4) = true := between_iff.2 hb
  rw [decodeFrom.eq_def]
  dsimp only
  rw [if_neg (not_lt_of_le (by omega)), if_neg notTwo, if_neg notThree, four, hc, hd, he]
  rfl

/-- The bytes of a character are read as the character, and the rest behind it. -/
theorem decodeFrom_char (ch : Char) :
    decodeFrom at_ (String.utf8EncodeChar ch ++ rest) =
      consChar ch.toNat (decodeFrom (at_ + (String.utf8EncodeChar ch).length) rest) := by
  -- the codes of surrogates are none of characters, and the decoder refuses what would spell them
  have valid : ch.toNat < 0xD800 ∨ 0xDFFF < ch.toNat ∧ ch.toNat < 0x110000 := ch.valid
  have code : ch.val.toNat = ch.toNat := rfl
  fun_cases String.utf8EncodeChar ch with
  | case1 v one =>
    have hb : (UInt8.ofNat v).toNat = v := toNat_ofNat (by omega)
    rw [List.singleton_append, decodeFrom_one _ _ (by omega), hb]
    rfl
  | case2 v notOne two =>
    have hb : (UInt8.ofNat (v / 64 % 32 + 192)).toNat = v / 64 % 32 + 192 := toNat_ofNat (by omega)
    have hc : (UInt8.ofNat (v % 64 + 128)).toNat = v % 64 + 128 := toNat_ofNat (by omega)
    rw [List.cons_append, List.singleton_append,
      decodeFrom_two _ _ (by omega) (continues_iff.2 (by omega))]
    congr 1
    unfold payload
    omega
  | case3 v notOne notTwo three =>
    have hb : (UInt8.ofNat (v / 4096 % 16 + 224)).toNat = v / 4096 % 16 + 224 :=
      toNat_ofNat (by omega)
    have hc : (UInt8.ofNat (v / 64 % 64 + 128)).toNat = v / 64 % 64 + 128 := toNat_ofNat (by omega)
    have hd : (UInt8.ofNat (v % 64 + 128)).toNat = v % 64 + 128 := toNat_ofNat (by omega)
    rw [List.cons_append, List.cons_append, List.singleton_append,
      decodeFrom_three _ _ (by omega) (secondOfThree_iff.2 (by constructor <;> split <;> omega))
        (continues_iff.2 (by omega))]
    congr 1
    unfold payload
    omega
  | case4 v notOne notTwo notThree =>
    have hb : (UInt8.ofNat (v / 262144 % 8 + 240)).toNat = v / 262144 % 8 + 240 :=
      toNat_ofNat (by omega)
    have hc : (UInt8.ofNat (v / 4096 % 64 + 128)).toNat = v / 4096 % 64 + 128 :=
      toNat_ofNat (by omega)
    have hd : (UInt8.ofNat (v / 64 % 64 + 128)).toNat = v / 64 % 64 + 128 := toNat_ofNat (by omega)
    have he : (UInt8.ofNat (v % 64 + 128)).toNat = v % 64 + 128 := toNat_ofNat (by omega)
    rw [List.cons_append, List.cons_append, List.cons_append, List.singleton_append,
      decodeFrom_four _ _ (by omega) (secondOfFour_iff.2 (by constructor <;> split <;> omega))
        (continues_iff.2 (by omega)) (continues_iff.2 (by omega))]
    congr 1
    unfold payload
    omega

end Character

/-! ## §3. Reading a text -/

theorem decodeFrom_flatMap (at_ : Nat) (chars : List Char) :
    decodeFrom at_ (chars.flatMap String.utf8EncodeChar) = .ok chars := by
  induction chars generalizing at_ with
  | nil => rfl
  | cons ch chars ih =>
    rw [List.flatMap_cons, decodeFrom_char, ih, consChar, Char.ofNat_toNat]
    rfl

/-- **Reading undoes spelling.** -/
theorem decode_encode (text : String) : decode (encode text) = .ok text := by
  unfold decode encode
  rw [decodeFrom_flatMap]
  exact congrArg Except.ok String.ofList_toList

end Utf8

/-! ## §4. Blanks -/

namespace Text

/-- The blank characters of ASCII, but for the vertical tabulator. -/
def isAsciiBlank (c : Char) : Bool :=
  c.toNat == 0x20 || c.toNat == 0x09 || c.toNat == 0x0A || c.toNat == 0x0C || c.toNat == 0x0D

/-- A text without the blanks of ASCII at its ends. -/
def asciiTrim (text : String) : String :=
  String.ofList (trimBy isAsciiBlank text.toList)

theorem isBlank_of_isAsciiBlank {c : Char} (h : isAsciiBlank c = true) : isBlank c = true := by
  unfold isAsciiBlank at h
  unfold isBlank
  simp only [Bool.or_eq_true, beq_iff_eq, Bool.and_eq_true, decide_eq_true_eq] at h ⊢
  omega

theorem isBlankByte_iff {b : UInt8} : isBlankByte b = true ↔ b.toNat = 0x20 ∨ b.toNat = 0x09 ∨
    b.toNat = 0x0A ∨ b.toNat = 0x0C ∨ b.toNat = 0x0D := by
  unfold isBlankByte
  simp only [Bool.or_eq_true, beq_iff_eq, ← UInt8.toNat_inj, UInt8.reduceToNat, or_assoc]

/-- **Two trimmings are one**: what is blank in ASCII is blank. -/
theorem trim_asciiTrim (text : String) : trim (asciiTrim text) = trim text := by
  unfold trim asciiTrim
  rw [String.toList_ofList, trimBy_trimBy fun _ => isBlank_of_isAsciiBlank]

end Text

namespace Utf8

open Text

/-- The bytes of a character are blank as the character is. -/
theorem isBlankByte_of_mem {ch : Char} {b : UInt8} (h : b ∈ String.utf8EncodeChar ch) :
    isBlankByte b = isAsciiBlank ch := by
  have code : ch.val.toNat = ch.toNat := rfl
  rw [Bool.eq_iff_iff, isBlankByte_iff]
  unfold isAsciiBlank
  simp only [Bool.or_eq_true, beq_iff_eq]
  -- a byte of a character beyond ASCII is no byte of ASCII, and so not blank
  have spelled : b.toNat = ch.toNat ∨ 0x80 ≤ b.toNat ∧ 0x80 ≤ ch.toNat := by
    revert h
    fun_cases String.utf8EncodeChar ch with
    | case1 v one =>
      intro h
      rw [List.mem_singleton.1 h, toNat_ofNat (by omega)]
      exact .inl rfl
    | case2 v notOne two =>
      simp only [List.mem_cons, List.not_mem_nil, or_false]
      rintro (rfl | rfl) <;> rw [toNat_ofNat (by omega)] <;> omega
    | case3 v notOne notTwo three =>
      simp only [List.mem_cons, List.not_mem_nil, or_false]
      rintro (rfl | rfl | rfl) <;> rw [toNat_ofNat (by omega)] <;> omega
    | case4 v notOne notTwo notThree =>
      simp only [List.mem_cons, List.not_mem_nil, or_false]
      rintro (rfl | rfl | rfl | rfl) <;> rw [toNat_ofNat (by omega)] <;> omega
  omega

theorem utf8EncodeChar_ne_nil (ch : Char) : String.utf8EncodeChar ch ≠ [] := by
  fun_cases String.utf8EncodeChar ch <;> exact List.cons_ne_nil _ _

/-- **Trimming the bytes of a text is trimming the text.** -/
theorem trimBy_encode (text : String) :
    trimBy isBlankByte (encode text) = encode (asciiTrim text) := by
  unfold encode asciiTrim
  rw [trimBy_flatMap (fun _ _ => isBlankByte_of_mem) utf8EncodeChar_ne_nil, String.toList_ofList]

end Utf8

end PlantEconomics
