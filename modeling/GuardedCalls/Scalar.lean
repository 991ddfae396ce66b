/-
GuardedCalls.Scalar — the numbers that bounds, pins, exclusions and
drawn values are made of.

A scalar is an integer whose magnitude fits 256 bits, so one type holds
every unsigned and every signed 256-bit number, and zero has one form. It is
computed with by sign and magnitude, so no step needs more than 256 bits.

* `Scalar.ofInt?` — the scalar of an integer, where there is one.
* `isBelowZero`, `magnitude` — the sign and the distance from zero;
  `ofWord`, `belowZero` — the scalars of a magnitude.
* `order` — compares by signs first; comparisons are decided by it.
* `add?`, `sub?`, `mul?`, `succ?`, `pred?`, `distance?` — arithmetic with
  256-bit magnitudes.
* `signedWord?`, `ofSigned` — the scalar in two's complement.
* `maxUnsigned`, `minSigned`, `maxSigned` — the limits of integers of a
  width in bits.
* `text`, `fixedText` — the decimal text, plain and with a point;
  `ofText?` reads the plain one.

Main statements: `ofInt?_eq_some_iff` says which integers are scalars,
and `le_iff`, `lt_iff` and `ext` move every question about scalars to
integers; `order_eq_lt_iff`, `add?_eq` and their neighbours do it for what
goes by sign and magnitude.
-/
import GuardedCalls.Text.Numeral
import GuardedCalls.Word

namespace GuardedCalls

/-- An integer whose magnitude fits 256 bits. -/
structure Scalar where
  /-- The integer itself. -/
  val : Int
  /-- Its magnitude fits 256 bits. -/
  inRange : val.natAbs < 2 ^ 256
  deriving DecidableEq

namespace Scalar

/-! ## Integers as scalars -/

/-- The scalar of an integer, unless its magnitude needs more than 256
bits. -/
def ofInt? (n : Int) : Option Scalar :=
  if h : n.natAbs < 2 ^ 256 then some ⟨n, h⟩ else none

/-- Zero. -/
def zero : Scalar := ⟨0, by decide⟩

/-- One. -/
def one : Scalar := ⟨1, by decide⟩

instance : Inhabited Scalar := ⟨zero⟩

/-- True is one, false is zero. -/
def ofBool (b : Bool) : Scalar := if b then one else zero

/-- A natural number taken modulo 2^256. -/
def ofWord (n : Nat) : Scalar :=
  ⟨(n % 2 ^ 256 : Nat), by rw [Int.natAbs_natCast]; exact Nat.mod_lt n (by decide)⟩

/-- Two scalars are equal when they are the same integer. -/
theorem ext {a b : Scalar} (h : a.val = b.val) : a = b := by
  cases a; cases b; cases h; rfl

/-- An integer is a scalar exactly when its magnitude fits 256 bits. -/
theorem ofInt?_eq_some_iff {n : Int} {a : Scalar} : ofInt? n = some a ↔ a.val = n := by
  unfold ofInt?
  split
  · constructor
    · intro h; rw [← Option.some.inj h]
    · intro h; exact congrArg some (ext h.symm)
  · next hn =>
    constructor
    · intro h; cases h
    · intro h; exact absurd (h ▸ a.inRange) hn

theorem ofInt?_eq_none_iff {n : Int} : ofInt? n = none ↔ 2 ^ 256 ≤ n.natAbs := by
  unfold ofInt?
  split
  · next h =>
    constructor
    · intro none; cases none
    · intro large; exact absurd h (Nat.not_lt.2 large)
  · next h => exact ⟨fun _ => Nat.not_lt.1 h, fun _ => rfl⟩

@[simp] theorem ofInt?_val (a : Scalar) : ofInt? a.val = some a :=
  ofInt?_eq_some_iff.2 rfl

/-! ## Sign and magnitude -/

/-- The distance from zero. -/
def magnitude (a : Scalar) : Nat := a.val.natAbs

/-- Below zero. -/
def isBelowZero (a : Scalar) : Bool := a.val < 0

/-- As far below zero as a natural number, taken modulo 2^256, says. -/
def belowZero (n : Nat) : Scalar :=
  ⟨-(n % 2 ^ 256 : Nat), by
    rw [Int.natAbs_neg, Int.natAbs_natCast]; exact Nat.mod_lt n (by decide)⟩

theorem val_ofWord {n : Nat} (fits : n < 2 ^ 256) : (ofWord n).val = n :=
  congrArg Nat.cast (Nat.mod_eq_of_lt fits)

theorem val_belowZero {n : Nat} (fits : n < 2 ^ 256) : (belowZero n).val = -n :=
  congrArg (fun n : Nat => -(n : Int)) (Nat.mod_eq_of_lt fits)

theorem isBelowZero_iff {a : Scalar} : a.isBelowZero = true ↔ a.val < 0 := decide_eq_true_iff

theorem isBelowZero_eq_false_iff {a : Scalar} : a.isBelowZero = false ↔ 0 ≤ a.val :=
  decide_eq_false_iff_not.trans Int.not_lt

/-- A scalar is its magnitude with its sign. -/
theorem val_eq (a : Scalar) :
    a.val = if a.isBelowZero then -(a.magnitude : Int) else a.magnitude := by
  unfold magnitude
  split
  · next below =>
    rw [isBelowZero_iff] at below
    omega
  · next above =>
    rw [Bool.not_eq_true, isBelowZero_eq_false_iff] at above
    omega

/-- The scalar as an unsigned 256-bit number. -/
def toUnsigned? (a : Scalar) : Option Nat := if a.isBelowZero then none else some a.magnitude

/-- The scalar as a word in two's complement: its magnitude, negated below
zero, unless the word then has the other sign. -/
def signedWord? (a : Scalar) : Option Word :=
  let magnitude := BitVec.ofNat 256 a.magnitude
  let word := if a.isBelowZero then -magnitude else magnitude
  if word.msb = a.isBelowZero then some word else none

/-- The scalar as a signed 256-bit number. -/
def toSigned? (a : Scalar) : Option Int := a.signedWord?.map BitVec.toInt

/-- The scalar of a word in two's complement. -/
def ofSigned (w : Word) : Scalar :=
  if w.msb then belowZero (-w).toNat else ofWord w.toNat

theorem signedWord?_eq (a : Scalar) : a.signedWord? =
    if -(2 ^ 255) ≤ a.val ∧ a.val < 2 ^ 255 then some (BitVec.ofInt 256 a.val) else none := by
  have := a.inRange
  have word : (if a.isBelowZero then -BitVec.ofNat 256 a.magnitude
      else BitVec.ofNat 256 a.magnitude) = BitVec.ofInt 256 a.val := by
    rw [a.val_eq]
    split
    · rw [BitVec.ofInt_neg, BitVec.ofInt_natCast]
    · rw [BitVec.ofInt_natCast]
  have sign : (BitVec.ofInt 256 a.val).msb = a.isBelowZero ↔
      -(2 ^ 255) ≤ a.val ∧ a.val < 2 ^ 255 := by
    rw [BitVec.msb_eq_toInt, BitVec.toInt_ofInt, isBelowZero, decide_eq_decide, Int.bmod]
    omega
  simp only [signedWord?, word, sign]

theorem val_ofSigned (w : Word) : (ofSigned w).val = w.toInt := by
  have := w.isLt
  unfold ofSigned
  rw [BitVec.toInt_eq_msb_cond]
  split
  · next below =>
    rw [val_belowZero (-w).isLt, BitVec.toNat_neg]
    rw [BitVec.msb_eq_decide, decide_eq_true_iff] at below
    omega
  · exact val_ofWord w.isLt

/-- A word has the number that it was made of. -/
theorem ofSigned_of_signedWord? {a : Scalar} {w : Word} (h : a.signedWord? = some w) :
    ofSigned w = a := by
  rw [signedWord?_eq] at h
  split at h
  · next inside =>
    cases h
    exact ext (by rw [val_ofSigned, BitVec.toInt_ofInt, Int.bmod_eq_of_le (by omega) (by omega)])
  · cases h

/-- Every word is made of its number. -/
theorem signedWord?_ofSigned (w : Word) : (ofSigned w).signedWord? = some w := by
  have := w.le_toInt
  have := w.toInt_lt
  rw [signedWord?_eq, val_ofSigned, if_pos (by omega), BitVec.ofInt_toInt]

/-! ## Order -/

instance : LE Scalar := ⟨fun a b => a.val ≤ b.val⟩

instance : LT Scalar := ⟨fun a b => a.val < b.val⟩

theorem le_iff {a b : Scalar} : a ≤ b ↔ a.val ≤ b.val := Iff.rfl

theorem lt_iff {a b : Scalar} : a < b ↔ a.val < b.val := Iff.rfl

/-- How two scalars are ordered. Below zero the greater magnitude is the
lower one. -/
def order (a b : Scalar) : Ordering :=
  match a.isBelowZero, b.isBelowZero with
  | false, false => compare a.magnitude b.magnitude
  | true, true => compare b.magnitude a.magnitude
  | true, false => .lt
  | false, true => .gt

instance : Ord Scalar := ⟨order⟩

theorem order_eq_lt_iff {a b : Scalar} : order a b = .lt ↔ a < b := by
  simp only [lt_iff]
  unfold order
  split <;> rename_i ha hb <;>
    simp only [isBelowZero_iff, isBelowZero_eq_false_iff] at ha hb <;>
    simp only [Nat.compare_eq_lt, magnitude, reduceCtorEq, true_iff, false_iff] <;> omega

theorem order_eq_gt_iff {a b : Scalar} : order a b = .gt ↔ b < a := by
  simp only [lt_iff]
  unfold order
  split <;> rename_i ha hb <;>
    simp only [isBelowZero_iff, isBelowZero_eq_false_iff] at ha hb <;>
    simp only [Nat.compare_eq_gt, magnitude, reduceCtorEq, true_iff, false_iff] <;> omega

theorem order_ne_gt_iff {a b : Scalar} : order a b ≠ .gt ↔ a ≤ b :=
  (not_congr order_eq_gt_iff).trans Int.not_lt

instance (a b : Scalar) : Decidable (a ≤ b) := decidable_of_iff _ order_ne_gt_iff

instance (a b : Scalar) : Decidable (a < b) := decidable_of_iff _ order_eq_lt_iff

/-! ## Exact arithmetic -/

/-- The sum with a magnitude. -/
def add? (a : Scalar) (m : Nat) : Option Scalar :=
  if a.isBelowZero then
    if a.magnitude ≤ m then some (ofWord (m - a.magnitude))
    else some (belowZero (a.magnitude - m))
  else ofInt? (a.magnitude + m : Nat)

/-- The difference with a magnitude. -/
def sub? (a : Scalar) (m : Nat) : Option Scalar :=
  if a.isBelowZero then ofInt? (-(a.magnitude + m : Nat))
  else if m ≤ a.magnitude then some (ofWord (a.magnitude - m))
  else some (belowZero (m - a.magnitude))

/-- The product with a magnitude. -/
def mul? (a : Scalar) (m : Nat) : Option Scalar :=
  ofInt? (if a.isBelowZero then -(a.magnitude * m : Nat) else (a.magnitude * m : Nat))

/-- The next scalar. -/
def succ? (a : Scalar) : Option Scalar := a.add? 1

/-- The scalar before. -/
def pred? (a : Scalar) : Option Scalar := a.sub? 1

/-- How far `high` lies above `low`, if it does not lie below it and the
distance fits 256 bits. -/
def distance? (low high : Scalar) : Option Nat :=
  if high < low then none
  else match low.isBelowZero, high.isBelowZero with
    | false, false => some (high.magnitude - low.magnitude)
    | true, true => some (low.magnitude - high.magnitude)
    | true, false =>
      if high.magnitude + low.magnitude < 2 ^ 256 then some (high.magnitude + low.magnitude)
      else none
    | false, true => none

theorem add?_eq (a : Scalar) {m : Nat} (fits : m < 2 ^ 256) : a.add? m = ofInt? (a.val + m) := by
  have := a.inRange
  unfold add? magnitude
  split
  · next below =>
    rw [isBelowZero_iff] at below
    split
    · rw [eq_comm, ofInt?_eq_some_iff, val_ofWord (by omega)]
      omega
    · rw [eq_comm, ofInt?_eq_some_iff, val_belowZero (by omega)]
      omega
  · next above =>
    rw [Bool.not_eq_true, isBelowZero_eq_false_iff] at above
    exact congrArg ofInt? (by omega)

theorem sub?_eq (a : Scalar) {m : Nat} (fits : m < 2 ^ 256) : a.sub? m = ofInt? (a.val - m) := by
  have := a.inRange
  unfold sub? magnitude
  split
  · next below =>
    rw [isBelowZero_iff] at below
    exact congrArg ofInt? (by omega)
  · next above =>
    rw [Bool.not_eq_true, isBelowZero_eq_false_iff] at above
    split
    · rw [eq_comm, ofInt?_eq_some_iff, val_ofWord (by omega)]
      omega
    · rw [eq_comm, ofInt?_eq_some_iff, val_belowZero (by omega)]
      omega

theorem mul?_eq (a : Scalar) (m : Nat) : a.mul? m = ofInt? (a.val * m) := by
  unfold mul?
  refine congrArg ofInt? ?_
  rw [a.val_eq]
  split
  · rw [Int.natCast_mul, Int.neg_mul]
  · rw [Int.natCast_mul]

theorem distance?_eq (low high : Scalar) : distance? low high =
    if low ≤ high ∧ high.val - low.val < 2 ^ 256 then some (high.val - low.val).toNat
    else none := by
  have := low.inRange
  have := high.inRange
  unfold distance? magnitude
  simp only [lt_iff, le_iff]
  split
  · rw [if_neg (by omega)]
  · split <;> rename_i hl hh <;> simp only [isBelowZero_iff, isBelowZero_eq_false_iff] at hl hh
    · rw [if_pos (by omega)]
      exact congrArg some (by omega)
    · rw [if_pos (by omega)]
      exact congrArg some (by omega)
    · split
      · rw [if_pos (by omega)]
        exact congrArg some (by omega)
      · rw [if_neg (by omega)]
    · omega

/-! ## The limits of a width -/

/-- The largest unsigned integer of a width; from 256 bits on it is the
largest scalar. -/
def maxUnsigned (bits : Nat) : Scalar :=
  if h : bits ≤ 256 then
    ⟨(2 ^ bits - 1 : Nat), by
      have := Nat.pow_le_pow_right (n := 2) (by decide) h
      have := Nat.two_pow_pos bits
      simp only [Int.natAbs_natCast]; omega⟩
  else ⟨(2 ^ 256 - 1 : Nat), by decide⟩

/-- The smallest signed integer of a width. A width above 256 shifts its
only bit out, which leaves zero. -/
def minSigned (bits : Nat) : Scalar :=
  if h : bits ≤ 256 then
    ⟨-(2 ^ (bits - 1) : Nat), by
      have := Nat.pow_le_pow_right (n := 2) (by decide) (show bits - 1 ≤ 255 by omega)
      simp only [Int.natAbs_neg, Int.natAbs_natCast]; omega⟩
  else zero

/-- The largest signed integer of a width. -/
def maxSigned (bits : Nat) : Scalar := maxUnsigned (bits - 1)

/-! ## Decimal text -/

/-- The sign that is written in front of a magnitude. -/
def signText (a : Scalar) : String := if a.val < 0 then "-" else ""

/-- The integer in decimal digits, with a minus sign below zero. -/
def text (a : Scalar) : String := a.signText ++ Nat.repr a.magnitude

/-- The scalar of a decimal text with a `-` in front if it is below zero. -/
def ofText? (s : String) : Option Scalar :=
  match s.toList with
  | '-' :: cs => if cs.all Text.isDigit then ofInt? (-(Text.ofDigits cs : Int)) else none
  | cs => if cs.all Text.isDigit then ofInt? (Text.ofDigits cs) else none

/-- The scalar as a number with `decimals` digits after the point, and at
least one before it. -/
def fixedText (a : Scalar) (decimals : Nat) : String :=
  let digits := Nat.toDigits 10 a.magnitude
  let padded := List.replicate (decimals + 1 - digits.length) '0' ++ digits
  let whole := padded.take (padded.length - decimals)
  let fraction := padded.drop (padded.length - decimals)
  a.signText ++ String.ofList whole ++ "." ++ String.ofList fraction

end Scalar

end GuardedCalls
