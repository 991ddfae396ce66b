/-
GuardedCalls.Proofs.ByteTheorems — bytes that are read back as what was
written.

* `ofBigEndian_bigEndian`, `Word.ofBytes_bytes` — a number and its bytes.
* `Text.Utf8.scan_utf8EncodeChar` — the reader of UTF-8 takes a character off
  the front of its bytes. There is one case for each length of a character;
  the bounds of the second byte are met because overlong forms, surrogates and
  numbers above U+10FFFF are no characters.
* `Text.Utf8.decodeLossy_encodeText` — a text is read off its bytes.
-/
import GuardedCalls.Proofs.SpaceTheorems

namespace GuardedCalls

/-! ## Numbers -/

@[simp] theorem length_bigEndian (count n : Nat) : (bigEndian count n).length = count := by
  simp [bigEndian]

@[simp] theorem Word.length_bytes (w : Word) : w.bytes.length = 32 := length_bigEndian 32 _

/-- The last byte is the lowest digit. -/
theorem bigEndian_succ (count n : Nat) :
    bigEndian (count + 1) n = bigEndian count (n / 256) ++ [UInt8.ofNat n] := by
  simp only [bigEndian, List.range_succ, List.map_append, List.map_cons, List.map_nil]
  congr 1
  · refine List.map_congr_left fun i hi => ?_
    have inside := List.mem_range.1 hi
    have place : count + 1 - 1 - i = count - 1 - i + 1 := by omega
    rw [Nat.div_div_eq_div_mul, ← Nat.pow_succ', place]
  · rw [show count + 1 - 1 - count = 0 by omega, Nat.pow_zero, Nat.div_one]

theorem ofBigEndian_append_byte (bs : List UInt8) (b : UInt8) :
    ofBigEndian (bs ++ [b]) = ofBigEndian bs * 256 + b.toNat := by
  simp [ofBigEndian]

/-- The bytes of a number denote it, as far as they reach. -/
theorem ofBigEndian_bigEndian (count n : Nat) :
    ofBigEndian (bigEndian count n) = n % 256 ^ count := by
  induction count generalizing n with
  | zero => simp [bigEndian, ofBigEndian, Nat.mod_one]
  | succ count ih =>
    have digits : n % 256 ^ (count + 1) = n % 256 + 256 * (n / 256 % 256 ^ count) := by
      rw [Nat.pow_succ', Nat.mod_mul]
    rw [bigEndian_succ, ofBigEndian_append_byte, ih, UInt8.toNat_ofNat', digits]
    omega

theorem Word.ofBytes_bytes (w : Word) : Word.ofBytes w.bytes = w := by
  have small : w.toNat < 256 ^ 32 := w.isLt
  rw [Word.ofBytes, Word.bytes, ofBigEndian_bigEndian, Nat.mod_eq_of_lt small,
    BitVec.ofNat_toNat, BitVec.setWidth_eq]

/-- What stands at the front of a word is the rest of it after a shift. -/
theorem Word.ofBytes_front (f : BitVec 192) :
    (Word.ofBytes (bigEndian 24 f.toNat ++ List.replicate 8 0) >>> 64).setWidth 192 = f := by
  have small : f.toNat < 256 ^ 24 := f.isLt
  apply BitVec.eq_of_toNat_eq
  rw [BitVec.toNat_setWidth, BitVec.toNat_ushiftRight, Word.ofBytes, BitVec.toNat_ofNat,
    ofBigEndian_append_zeros, ofBigEndian_bigEndian, Nat.mod_eq_of_lt small,
    Nat.shiftRight_eq_div_pow, Nat.mod_eq_of_lt (a := f.toNat * 256 ^ 8) (by omega)]
  omega

/-! ## Text -/

namespace Text.Utf8

variable {p : Partial} {missing bits : Nat} {low high b : UInt8} {bs : List UInt8}

/-- The last byte of a character. -/
theorem scan_last (least : low ≤ b) (most : b ≤ high) (last : missing ≤ 1) :
    scan (some ⟨missing, low, high, bits⟩) (b :: bs) =
      some (Char.ofNat (bits * 64 + b.toNat % 64)) :: scan none bs := by
  simp only [scan, if_pos (And.intro least most), if_pos last]

/-- A byte within a character. -/
theorem scan_more (least : low ≤ b) (most : b ≤ high) (more : 1 < missing) :
    scan (some ⟨missing, low, high, bits⟩) (b :: bs) =
      scan (some ⟨missing - 1, 0x80, 0xBF, bits * 64 + b.toNat % 64⟩) bs := by
  simp only [scan, if_pos (And.intro least most), if_neg (Nat.not_le.2 more)]

theorem scan_first (begins : start b = .first p) : scan none (b :: bs) = scan (some p) bs := by
  simp only [scan, begins]

theorem toNat_ofNat {n : Nat} (small : n < 256) : (UInt8.ofNat n).toNat = n :=
  UInt8.toNat_ofNat_of_lt' small

/-- What a byte begins, by its number. -/
theorem start_ofNat {n : Nat} (small : n < 256) : start (UInt8.ofNat n) =
    if n < 0x80 then .whole (Char.ofNat n)
    else if n < 0xC2 then .broken
    else if n < 0xE0 then .first ⟨1, 0x80, 0xBF, n % 32⟩
    else if n = 0xE0 then .first ⟨2, 0xA0, 0xBF, 0⟩
    else if n = 0xED then .first ⟨2, 0x80, 0x9F, 13⟩
    else if n < 0xF0 then .first ⟨2, 0x80, 0xBF, n % 16⟩
    else if n = 0xF0 then .first ⟨3, 0x90, 0xBF, 0⟩
    else if n = 0xF4 then .first ⟨3, 0x80, 0x8F, 4⟩
    else if n < 0xF4 then .first ⟨3, 0x80, 0xBF, n % 8⟩
    else .broken := by
  simp only [start, UInt8.lt_iff_toNat_lt, ← UInt8.toNat_inj, toNat_ofNat small]
  rfl

/-- The first byte of a character of three bytes leaves room for the second. -/
theorem start_three {v : Nat} (least : 0x800 ≤ v) (most : v < 0x10000)
    (noSurrogate : v < 0xD800 ∨ 0xDFFF < v) :
    ∃ low high, start (UInt8.ofNat (v / 4096 % 16 + 0xE0)) = .first ⟨2, low, high, v / 4096⟩ ∧
      low ≤ UInt8.ofNat (v / 64 % 64 + 0x80) ∧ UInt8.ofNat (v / 64 % 64 + 0x80) ≤ high := by
  have second : (UInt8.ofNat (v / 64 % 64 + 0x80)).toNat = v / 64 % 64 + 0x80 :=
    toNat_ofNat (by omega)
  simp only [UInt8.le_iff_toNat_le, second]
  rw [start_ofNat (by omega), if_neg (by omega), if_neg (by omega), if_neg (by omega)]
  split
  · exact ⟨_, _, by rw [show v / 4096 = 0 by omega], by simp; omega, by simp; omega⟩
  split
  · exact ⟨_, _, by rw [show v / 4096 = 13 by omega], by simp, by simp; omega⟩
  rw [if_pos (by omega)]
  exact ⟨_, _, by rw [show (v / 4096 % 16 + 0xE0) % 16 = v / 4096 by omega], by simp,
    by simp; omega⟩

/-- So does the first byte of a character of four. -/
theorem start_four {v : Nat} (least : 0x10000 ≤ v) (most : v < 0x110000) :
    ∃ low high, start (UInt8.ofNat (v / 262144 % 8 + 0xF0)) = .first ⟨3, low, high, v / 262144⟩ ∧
      low ≤ UInt8.ofNat (v / 4096 % 64 + 0x80) ∧ UInt8.ofNat (v / 4096 % 64 + 0x80) ≤ high := by
  have second : (UInt8.ofNat (v / 4096 % 64 + 0x80)).toNat = v / 4096 % 64 + 0x80 :=
    toNat_ofNat (by omega)
  simp only [UInt8.le_iff_toNat_le, second]
  rw [start_ofNat (by omega), if_neg (by omega), if_neg (by omega), if_neg (by omega),
    if_neg (by omega), if_neg (by omega), if_neg (by omega)]
  split
  · exact ⟨_, _, by rw [show v / 262144 = 0 by omega], by simp; omega, by simp; omega⟩
  split
  · exact ⟨_, _, by rw [show v / 262144 = 4 by omega], by simp, by simp; omega⟩
  rw [if_pos (by omega)]
  exact ⟨_, _, by rw [show (v / 262144 % 8 + 0xF0) % 8 = v / 262144 by omega], by simp,
    by simp; omega⟩

/-- A later byte of a character lies in the bounds for one, and carries six
bits. -/
theorem later_byte (n : Nat) : (0x80 : UInt8) ≤ UInt8.ofNat (n % 64 + 0x80) ∧
    UInt8.ofNat (n % 64 + 0x80) ≤ 0xBF := by
  have number : (UInt8.ofNat (n % 64 + 0x80)).toNat = n % 64 + 0x80 :=
    toNat_ofNat (by omega)
  simp only [UInt8.le_iff_toNat_le, number]
  simp
  omega

theorem bits_of_later (n : Nat) : (UInt8.ofNat (n % 64 + 0x80)).toNat % 64 = n % 64 := by
  rw [toNat_ofNat (by omega)]
  omega

/-- **A character is read off the front of its bytes.** -/
theorem scan_utf8EncodeChar (c : Char) (rest : List UInt8) :
    scan none (String.utf8EncodeChar c ++ rest) = some c :: scan none rest := by
  have isChar : c.toNat < 0xD800 ∨ 0xDFFF < c.toNat ∧ c.toNat < 0x110000 := c.valid
  have same : c.val.toNat = c.toNat := rfl
  simp only [String.utf8EncodeChar, same]
  set v := c.toNat with hv
  split
  · next one =>
    have begins : start (UInt8.ofNat v) = .whole c := by
      rw [start_ofNat (by omega), if_pos (by omega), hv, Char.ofNat_toNat]
    simp only [List.singleton_append, scan, begins]
  split
  · next two =>
    have begins : start (UInt8.ofNat (v / 64 % 32 + 192)) = .first ⟨1, 0x80, 0xBF, v / 64⟩ := by
      rw [start_ofNat (by omega), if_neg (by omega), if_neg (by omega), if_pos (by omega),
        show (v / 64 % 32 + 192) % 32 = v / 64 by omega]
    obtain ⟨low, high⟩ := later_byte v
    rw [List.cons_append, scan_first begins, List.singleton_append,
      scan_last low high (Nat.le_refl 1), bits_of_later,
      show v / 64 * 64 + v % 64 = v by omega, Char.ofNat_toNat]
  split
  · next three =>
    obtain ⟨low, high, begins, low₂, high₂⟩ := start_three (v := v) (by omega) (by omega) (by omega)
    obtain ⟨low₃, high₃⟩ := later_byte v
    rw [List.cons_append, scan_first begins, List.cons_append, scan_more low₂ high₂ (by decide),
      List.singleton_append, scan_last low₃ high₃ (Nat.le_refl 1), bits_of_later, bits_of_later,
      show (v / 4096 * 64 + v / 64 % 64) * 64 + v % 64 = v by omega, Char.ofNat_toNat]
  · next four =>
    obtain ⟨low, high, begins, low₂, high₂⟩ := start_four (v := v) (by omega) (by omega)
    obtain ⟨low₃, high₃⟩ := later_byte (v / 64)
    obtain ⟨low₄, high₄⟩ := later_byte v
    rw [List.cons_append, scan_first begins, List.cons_append, scan_more low₂ high₂ (by decide),
      List.cons_append, scan_more low₃ high₃ (by decide), List.singleton_append,
      scan_last low₄ high₄ (Nat.le_refl 1), bits_of_later, bits_of_later, bits_of_later,
      show ((v / 262144 * 64 + v / 4096 % 64) * 64 + v / 64 % 64) * 64 + v % 64 = v by omega,
      Char.ofNat_toNat]

theorem scan_encode (cs : List Char) : scan none (encode cs) = cs.map some := by
  induction cs with
  | nil => rfl
  | cons c cs ih =>
    rw [encode, List.flatMap_cons, scan_utf8EncodeChar]
    exact congrArg (some c :: ·) ih

/-- **A text is read off its bytes.** -/
theorem decodeLossy_encodeText (text : String) : decodeLossy (encodeText text) = text := by
  simp [decodeLossy, encodeText, scan_encode, Function.comp_def]

end Text.Utf8

end GuardedCalls
