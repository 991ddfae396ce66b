/-
GuardedCalls.Proofs.TypeGrammarTheorems — the grammar of type names, and that the
reader reads it.

* `AbiType.WellFormed` — the widths, sizes and lengths in a type are such as
  types may have.
* `Grammar.Derives` — which characters derive which type. A word is followed by
  `[`, `,`, `)`, a space or the end, so it is a run of letters and digits that
  goes no further.
* `derives_of_read` — what the reader takes off the front of a text derives the
  type that it returns. The induction is on the fuel.
* `type_derives` — it takes all that derives a type, if the text goes on with no
  letter or digit, and reads on as if it had just ended that type. The induction
  is on the derivation; `type_base` and `items_items` are its other parts.
* `read_ends` — the fuel that the length of the text asks for does not run out, and
  more of it makes no difference. The induction is on the fuel, and what is left to
  read gets shorter at every second step.
-/
import GuardedCalls.Abi.Type.Reader
import GuardedCalls.Proofs.NumberTypeTheorems

namespace GuardedCalls

/-! ## Digits -/

namespace Text

/-- A decimal digit has the value that the library gives it. -/
theorem digit?_eq (c : Char) :
    digit? c = if c.isDigit then some (c.toNat - '0'.toNat) else none := by
  have same : ('0' ≤ c ∧ c ≤ '9') ↔ c.isDigit = true := by
    simp only [Char.isDigit, Bool.and_eq_true, decide_eq_true_eq]
    rfl
  simp only [digit?, same]

theorem isDigit_eq (c : Char) : isDigit c = c.isDigit := by
  rw [isDigit, digit?_eq]
  cases c.isDigit <;> rfl

theorem le_ofDigitChars (cs : List Char) (n : Nat) : n ≤ Nat.ofDigitChars 10 cs n := by
  induction cs generalizing n with
  | nil => exact Nat.le_refl n
  | cons c cs ih =>
    rw [Nat.ofDigitChars_cons]
    have := ih (10 * n + (c.toNat - '0'.toNat))
    omega

/-- What is read of digits is the number that they are digits of, if it is within
the limit. -/
theorem readDigits_eq_ok_iff {limit n m : Nat} {cs : List Char} (small : n ≤ limit) :
    readDigits limit n cs = .ok m ↔
      (∀ c ∈ cs, c.isDigit = true) ∧ Nat.ofDigitChars 10 cs n = m ∧ m ≤ limit := by
  induction cs generalizing n with
  | nil =>
    simp only [readDigits, Except.ok.injEq, List.not_mem_nil, false_implies, implies_true,
      true_and, Nat.ofDigitChars_nil]
    exact ⟨fun same => ⟨same, same ▸ small⟩, And.left⟩
  | cons c cs ih =>
    simp only [readDigits, digit?_eq, List.forall_mem_cons, Nat.ofDigitChars_cons,
      Nat.mul_comm 10 n]
    cases digit : c.isDigit with
    | false => simp
    | true =>
      by_cases large : limit < n * 10 + (c.toNat - '0'.toNat)
      · have most := le_ofDigitChars cs (n * 10 + (c.toNat - '0'.toNat))
        simp only [if_true, if_pos large, reduceCtorEq, true_and, false_iff]
        omega
      · simp only [if_true, if_neg large, ih (Nat.not_lt.1 large), true_and]

end Text

/-! ## Well-formed types -/

namespace AbiType

mutual

/-- The widths, sizes and lengths in the type are such as types may have. -/
def WellFormed : AbiType → Prop
  | .number type => type.WellFormed
  | .fixedBytes size => 1 ≤ size ∧ size ≤ 32
  | .function => True
  | .bytes => True
  | .string => True
  | .fixedArray element length => WellFormed element ∧ 1 ≤ length ∧ length < 2 ^ 64
  | .array element => WellFormed element
  | .tuple items => AllWellFormed items

/-- The types are well formed. -/
def AllWellFormed : List AbiType → Prop
  | [] => True
  | t :: ts => WellFormed t ∧ AllWellFormed ts

end

end AbiType

/-! ## The grammar -/

namespace AbiType.Grammar

/-- Decimal digits, at least one of them, and the number that they denote. -/
structure Numeral (digits : List Char) (n : Nat) : Prop where
  nonempty : digits ≠ []
  digital : ∀ c ∈ digits, c.isDigit = true
  denotes : Nat.ofDigitChars 10 digits 0 = n

theorem readCount?_eq_some_iff {limit n : Nat} {digits : List Char} :
    Text.readCount? limit digits = some n ↔ Numeral digits n ∧ n ≤ limit := by
  have read : Text.readDigits limit 0 digits = .ok n ↔ _ :=
    Text.readDigits_eq_ok_iff (Nat.zero_le limit)
  have counts : Text.readCount? limit digits = some n ↔
      digits ≠ [] ∧ Text.readDigits limit 0 digits = .ok n := by
    cases digits with
    | nil => simp [Text.readCount?]
    | cons c cs =>
      rw [Text.readCount?, if_neg (by simp)]
      cases Text.readDigits limit 0 (c :: cs) <;> simp [Except.toOption]
  rw [counts, read]
  exact ⟨fun ⟨nonempty, digital, denotes, small⟩ => ⟨⟨nonempty, digital, denotes⟩, small⟩,
    fun ⟨⟨nonempty, digital, denotes⟩, small⟩ => ⟨nonempty, digital, denotes, small⟩⟩

/-- What follows `uint` and `int`: nothing, which stands for 256 bits, or the digits
of a width. -/
inductive IntegerWidth : List Char → Nat → Prop
  | standard : IntegerWidth [] 256
  | written {digits : List Char} {bits : Nat} :
      Numeral digits bits → IsWidth bits → IntegerWidth digits bits

/-- What follows `ufixed` and `fixed`: nothing, which stands for 128 bits and 18
decimals, or both numbers with an `x` between them. -/
inductive FixedPointWidths : List Char → Nat → Nat → Prop
  | standard : FixedPointWidths [] 128 18
  | written {whole part : List Char} {bits decimals : Nat} :
      Numeral whole bits → IsWidth bits → Numeral part decimals → 1 ≤ decimals → decimals ≤ 80 →
      FixedPointWidths (whole ++ 'x' :: part) bits decimals

/-- The words, and the types that they name. -/
inductive TypeWord : List Char → AbiType → Prop
  | address : TypeWord "address".toList (.number .address)
  | bool : TypeWord "bool".toList (.number .bool)
  | string : TypeWord "string".toList .string
  | function : TypeWord "function".toList .function
  | bytes : TypeWord "bytes".toList .bytes
  | uint {width : List Char} {bits : Nat} :
      IntegerWidth width bits → TypeWord ("uint".toList ++ width) (.number (.uint bits))
  | int {width : List Char} {bits : Nat} :
      IntegerWidth width bits → TypeWord ("int".toList ++ width) (.number (.int bits))
  | ufixed {widths : List Char} {bits decimals : Nat} : FixedPointWidths widths bits decimals →
      TypeWord ("ufixed".toList ++ widths) (.number (.ufixed bits decimals))
  | fixed {widths : List Char} {bits decimals : Nat} : FixedPointWidths widths bits decimals →
      TypeWord ("fixed".toList ++ widths) (.number (.fixed bits decimals))
  | fixedBytes {digits : List Char} {size : Nat} : Numeral digits size → 1 ≤ size → size ≤ 32 →
      TypeWord ("bytes".toList ++ digits) (.fixedBytes size)

/-- An array suffix, and the type that it makes of a type. -/
inductive Suffix (t : AbiType) : List Char → AbiType → Prop
  | array : Suffix t ['[', ']'] (.array t)
  | fixedArray {digits : List Char} {length : Nat} :
      Numeral digits length → 1 ≤ length → length < 2 ^ 64 →
      Suffix t ('[' :: digits ++ [']']) (.fixedArray t length)

/-- Spaces, or nothing. Other blanks are no spaces. -/
def Spaces (cs : List Char) : Prop := ∀ c ∈ cs, c = ' '

mutual

/-- A word or a tuple. -/
inductive Base : List Char → AbiType → Prop
  | word {cs : List Char} {t : AbiType} : TypeWord cs t → Base cs t
  | unit : Base ['(', ')'] (.tuple [])
  | tuple {cs : List Char} {ts : List AbiType} : Items cs ts → Base ('(' :: cs ++ [')']) (.tuple ts)

/-- A base and any number of suffixes. -/
inductive Derives : List Char → AbiType → Prop
  | base {cs : List Char} {t : AbiType} : Base cs t → Derives cs t
  | suffix {cs ds : List Char} {t t' : AbiType} :
      Derives cs t → Suffix t ds t' → Derives (cs ++ ds) t'

/-- One or more types with commas between them. Spaces may stand around each. -/
inductive Items : List Char → List AbiType → Prop
  | last {before cs after : List Char} {t : AbiType} :
      Spaces before → Derives cs t → Spaces after → Items (before ++ cs ++ after) [t]
  | more {before cs after rest : List Char} {t : AbiType} {ts : List AbiType} :
      Spaces before → Derives cs t → Spaces after → Items rest ts →
      Items (before ++ cs ++ after ++ ',' :: rest) (t :: ts)

end

/-! ## Types of the grammar are well formed -/

theorem IntegerWidth.isWidth {width : List Char} {bits : Nat} (h : IntegerWidth width bits) :
    IsWidth bits := by
  cases h with
  | standard => exact ⟨by decide, by decide, by decide⟩
  | written _ isWidth => exact isWidth

theorem FixedPointWidths.inRange {widths : List Char} {bits decimals : Nat}
    (h : FixedPointWidths widths bits decimals) :
    IsWidth bits ∧ 1 ≤ decimals ∧ decimals ≤ 80 := by
  cases h with
  | standard => exact ⟨⟨by decide, by decide, by decide⟩, by decide, by decide⟩
  | written _ isWidth _ one most => exact ⟨isWidth, one, most⟩

theorem TypeWord.wellFormed {word : List Char} {t : AbiType} (h : TypeWord word t) :
    t.WellFormed := by
  cases h with
  | address => trivial
  | bool => trivial
  | string => trivial
  | function => trivial
  | bytes => trivial
  | uint h => exact h.isWidth
  | int h => exact h.isWidth
  | ufixed h => exact h.inRange
  | fixed h => exact h.inRange
  | fixedBytes _ one most => exact ⟨one, most⟩

theorem Suffix.wellFormed {ds : List Char} {t t' : AbiType} (h : Suffix t ds t')
    (wf : t.WellFormed) : t'.WellFormed := by
  cases h with
  | array => exact wf
  | fixedArray _ one small => exact ⟨wf, one, small⟩

mutual

theorem Base.wellFormed {cs : List Char} {t : AbiType} : Base cs t → t.WellFormed
  | .word word => word.wellFormed
  | .unit => trivial
  | .tuple items => items.wellFormed

theorem Derives.wellFormed {cs : List Char} {t : AbiType} : Derives cs t → t.WellFormed
  | .base base => base.wellFormed
  | .suffix derived suffix => suffix.wellFormed derived.wellFormed

theorem Items.wellFormed {cs : List Char} {ts : List AbiType} : Items cs ts → AllWellFormed ts
  | .last _ derived _ => ⟨derived.wellFormed, trivial⟩
  | .more _ derived _ items => ⟨derived.wellFormed, items.wellFormed⟩

end

end AbiType.Grammar

namespace AbiType.Reader

open Grammar

variable {source rest : List Char}

/-! ## Widths and words -/

theorem width_eq_ok_iff {digits : List Char} {n : Nat} :
    width source digits = .ok n ↔ Numeral digits n ∧ n ≤ Text.maxWord64 := by
  rw [← readCount?_eq_some_iff]
  by_cases digital : digits ≠ [] ∧ ∀ c ∈ digits, c.isDigit = true
  · have through : (digits.isEmpty || !digits.all Text.isDigit) = false := by
      simpa [Text.isDigit_eq] using digital
    rw [width, if_neg (by simp [through])]
    cases Text.readCount? Text.maxWord64 digits <;> simp
  · have stops : (digits.isEmpty || !digits.all Text.isDigit) = true := by
      simp only [Bool.or_eq_true, List.isEmpty_iff, Bool.not_eq_true', List.all_eq_false,
        Text.isDigit_eq]
      rcases not_and_or.1 digital with empty | other
      · exact .inl (not_not.1 empty)
      · right
        push Not at other
        simpa using other
    rw [width, if_pos stops, readCount?_eq_some_iff]
    simp only [reduceCtorEq, false_iff]
    exact fun read => digital ⟨read.1.nonempty, read.1.digital⟩

theorem byteWidth_eq_ok_iff {n bits : Nat} :
    byteWidth source n = .ok bits ↔ n = bits ∧ IsWidth bits := by
  unfold byteWidth
  split
  · next outside =>
    simp only [reduceCtorEq, IsWidth, false_iff]
    omega
  · next inside =>
    simp only [Except.ok.injEq, IsWidth]
    omega

theorem integerBits_eq_ok_iff {bits : Nat} :
    integerBits source rest = .ok bits ↔ IntegerWidth rest bits := by
  unfold integerBits
  constructor
  · intro read
    split at read
    · next empty =>
      cases read
      rw [List.isEmpty_iff.1 empty]
      exact .standard
    split at read
    · cases read
    next n numeral =>
    obtain ⟨rfl, isWidth⟩ := byteWidth_eq_ok_iff.1 read
    exact .written (width_eq_ok_iff.1 numeral).1 isWidth
  · intro h
    cases h with
    | standard => rfl
    | written numeral isWidth =>
      have small := Nat.le_trans isWidth.2.2 (show 256 ≤ Text.maxWord64 by decide)
      rw [if_neg (by simp [numeral.nonempty]), width_eq_ok_iff.2 ⟨numeral, small⟩]
      exact byteWidth_eq_ok_iff.2 ⟨rfl, isWidth⟩

theorem byteSize_eq_ok_iff {size : Nat} :
    byteSize source rest = .ok size ↔ Numeral rest size ∧ 1 ≤ size ∧ size ≤ 32 := by
  unfold byteSize
  constructor
  · intro read
    split at read
    · cases read
    · next n digits =>
      split at read
      · cases read
      · cases read
        exact ⟨(width_eq_ok_iff.1 digits).1, by omega, by omega⟩
  · rintro ⟨numeral, one, most⟩
    rw [width_eq_ok_iff.2 ⟨numeral, Nat.le_trans most (by decide)⟩]
    exact if_neg (by omega)

/-- What stands before the first place where a text stops is taken and dropped as a
whole. -/
theorem takeWhile_append_of_stop {p : Char → Bool} {front rest : List Char}
    (all : ∀ c ∈ front, p c = true) (stop : ∀ c ∈ rest.head?, p c = false) :
    (front ++ rest).takeWhile p = front := by
  rw [List.takeWhile_append_of_pos all]
  cases rest with
  | nil => simp
  | cons c rest => simp [stop c rfl]

theorem dropWhile_append_of_stop {p : Char → Bool} {front rest : List Char}
    (all : ∀ c ∈ front, p c = true) (stop : ∀ c ∈ rest.head?, p c = false) :
    (front ++ rest).dropWhile p = rest := by
  rw [List.dropWhile_append_of_pos all]
  cases rest with
  | nil => rfl
  | cons c rest => simp [stop c rfl]

/-- The widths stand before and after the first `x`. -/
theorem fixedPointWidths_append {whole part : List Char} {bits decimals : Nat}
    (first : 'x' ∉ whole) : fixedPointWidths source (whole ++ 'x' :: part) = .ok (bits, decimals) ↔
      Numeral whole bits ∧ IsWidth bits ∧ Numeral part decimals ∧ 1 ≤ decimals ∧ decimals ≤ 80 := by
  have others : ∀ c ∈ whole, (c != 'x') = true := fun c hc =>
    bne_iff_ne.2 fun point => first (point ▸ hc)
  rw [fixedPointWidths, if_neg (by simp), if_neg (by simp),
    takeWhile_append_of_stop others (by simp), dropWhile_append_of_stop others (by simp),
    List.drop_succ_cons, List.drop_zero]
  constructor
  · intro read
    split at read
    · cases read
    next m numeral =>
    split at read
    · cases read
    next n numeral' =>
    split at read
    · cases read
    next isWidth =>
    obtain ⟨rfl, isWidth⟩ := byteWidth_eq_ok_iff.1 isWidth
    split at read
    · cases read
    cases read
    exact ⟨(width_eq_ok_iff.1 numeral).1, isWidth, (width_eq_ok_iff.1 numeral').1, by omega,
      by omega⟩
  · rintro ⟨numeral, isWidth, numeral', one, most⟩
    have small := Nat.le_trans isWidth.2.2 (show 256 ≤ Text.maxWord64 by decide)
    have small' := Nat.le_trans most (show 80 ≤ Text.maxWord64 by decide)
    simp only [width_eq_ok_iff.2 ⟨numeral, small⟩, width_eq_ok_iff.2 ⟨numeral', small'⟩,
      byteWidth_eq_ok_iff.2 ⟨rfl, isWidth⟩]
    exact if_neg (by omega)

theorem fixedPointWidths_eq_ok_iff {bits decimals : Nat} :
    fixedPointWidths source rest = .ok (bits, decimals) ↔ FixedPointWidths rest bits decimals := by
  constructor
  · intro read
    by_cases empty : rest = []
    · subst empty
      cases read
      exact .standard
    by_cases point : 'x' ∈ rest
    · obtain ⟨whole, part, rfl, first⟩ := List.eq_append_cons_of_mem point
      obtain ⟨numeral, isWidth, numeral', one, most⟩ := (fixedPointWidths_append first).1 read
      exact .written numeral isWidth numeral' one most
    · rw [fixedPointWidths, if_neg (by simp [empty]), if_pos (by simp [point])] at read
      cases read
  · intro h
    cases h with
    | standard => rfl
    | written numeral isWidth numeral' one most =>
      have first : 'x' ∉ _ := fun mem => absurd (numeral.digital _ mem) (by decide)
      exact (fixedPointWidths_append first).2 ⟨numeral, isWidth, numeral', one, most⟩

theorem map_eq_ok_iff {ε α β : Type} {f : α → β} {m : Except ε α} {b : β} :
    m.map f = .ok b ↔ ∃ a, m = .ok a ∧ f a = b := by
  cases m with
  | error e => exact ⟨nofun, nofun⟩
  | ok a => simp [Except.map]

/-- A result of two branches is one of either. -/
theorem of_ite_eq_ok {ε α : Type} {c : Prop} [Decidable c] {x y : Except ε α} {a : α} {P : Prop}
    (yes : c → x = .ok a → P) (no : y = .ok a → P) : (if c then x else y) = .ok a → P := by
  split
  · next h => exact yes h
  · exact no

/-- A word that is read names its type. -/
theorem typeWord_of_ofWord {word : List Char} {t : AbiType} :
    ofWord source word = .ok t → TypeWord word t := by
  unfold ofWord
  refine of_ite_eq_ok ?_ <| of_ite_eq_ok ?_ <| of_ite_eq_ok ?_ <| of_ite_eq_ok ?_ <|
    of_ite_eq_ok ?_ <| of_ite_eq_ok ?_ <| of_ite_eq_ok ?_ <| of_ite_eq_ok ?_ <|
    of_ite_eq_ok ?_ <| of_ite_eq_ok ?_ nofun
  -- Five words are types by themselves.
  · rintro rfl ⟨⟩
    exact .address
  · rintro rfl ⟨⟩
    exact .bool
  · rintro rfl ⟨⟩
    exact .string
  · rintro rfl ⟨⟩
    exact .function
  · rintro rfl ⟨⟩
    exact .bytes
  -- Five go on with a width.
  all_goals
    intro front read
    obtain ⟨rest, rfl⟩ := List.isPrefixOf_iff_prefix.1 front
    obtain ⟨widths, inner, rfl⟩ := map_eq_ok_iff.1 read
  · exact .uint (integerBits_eq_ok_iff.1 inner)
  · exact .int (integerBits_eq_ok_iff.1 inner)
  · exact .ufixed (fixedPointWidths_eq_ok_iff.1 inner)
  · exact .fixed (fixedPointWidths_eq_ok_iff.1 inner)
  · obtain ⟨numeral, one, most⟩ := byteSize_eq_ok_iff.1 inner
    exact .fixedBytes numeral one most

/-- And a word that names a type is read. -/
theorem ofWord_of_typeWord {word : List Char} {t : AbiType} (h : TypeWord word t) :
    ofWord source word = .ok t := by
  cases h with
  | address => rfl
  | bool => rfl
  | string => rfl
  | function => rfl
  | bytes => rfl
  | @uint width bits h =>
    change (integerBits source width).map (fun bits => AbiType.number (.uint bits)) = _
    rw [integerBits_eq_ok_iff.2 h]
    rfl
  | @int width bits h =>
    change (integerBits source width).map (fun bits => AbiType.number (.int bits)) = _
    rw [integerBits_eq_ok_iff.2 h]
    rfl
  | @ufixed widths bits decimals h =>
    change (fixedPointWidths source widths).map (fun s => AbiType.number (.ufixed s.1 s.2)) = _
    rw [fixedPointWidths_eq_ok_iff.2 h]
    rfl
  | @fixed widths bits decimals h =>
    change (fixedPointWidths source widths).map (fun s => AbiType.number (.fixed s.1 s.2)) = _
    rw [fixedPointWidths_eq_ok_iff.2 h]
    rfl
  | @fixedBytes digits size numeral one most =>
    obtain ⟨c, cs, rfl⟩ := List.exists_cons_of_ne_nil numeral.nonempty
    change (byteSize source (c :: cs)).map AbiType.fixedBytes = _
    rw [byteSize_eq_ok_iff.2 ⟨numeral, one, most⟩]
    rfl

/-! ## What is read derives its type -/

variable {t t' : AbiType} {cs : List Char}

theorem suffix_of_sized {digits : List Char} (read : sized source t digits rest = .ok t') :
    Suffix t ('[' :: digits ++ [']']) t' := by
  unfold sized at read
  split at read
  · next empty =>
    cases read
    rw [List.isEmpty_iff.1 empty]
    exact .array
  · split at read
    · cases read
    · cases read
    · next n positive counted =>
      cases read
      obtain ⟨numeral, most⟩ := readCount?_eq_some_iff.1 counted
      have small : Text.maxWord64 < 2 ^ 64 := by decide
      exact .fixedArray numeral (Nat.one_le_iff_ne_zero.2 positive) (Nat.lt_of_le_of_lt most small)

/-- The suffixes that are read go on with a derivation. Of a suffix that has begun,
the bracket and the digits come before what is left to read. -/
theorem derives_of_suffixes {front : List Char} {digits? : Option (List Char)}
    (derived : Derives front t) (read : suffixes source t digits? cs = .ok (t', rest)) :
    ∃ middle, cs = middle ++ rest ∧
      Derives (front ++ digits?.elim [] ('[' :: ·) ++ middle) t' := by
  induction cs generalizing t front digits? with
  | nil =>
    cases digits? <;> cases read
    exact ⟨[], rfl, by simpa using derived⟩
  | cons c cs ih =>
    cases digits? with
    | none =>
      unfold suffixes at read
      split at read
      · next opens =>
        obtain ⟨middle, rfl, derived⟩ := ih derived read
        exact ⟨c :: middle, rfl, by simpa [opens] using derived⟩
      · cases read
        exact ⟨[], rfl, by simpa using derived⟩
    | some digits =>
      unfold suffixes at read
      split at read
      · obtain ⟨middle, rfl, derived⟩ := ih derived read
        exact ⟨c :: middle, rfl, by simpa using derived⟩
      · split at read
        · next closes =>
          split at read
          · cases read
          · next made =>
            obtain ⟨middle, rfl, derived⟩ := ih (derived.suffix (suffix_of_sized made)) read
            exact ⟨c :: middle, rfl, by simpa [closes] using derived⟩
        · cases read

/-- A base is followed by its suffixes. -/
theorem derives_of_base {base : List Char} (h : Base base t)
    (read : suffixes source t none cs = .ok (t', rest)) :
    ∃ front, base ++ cs = front ++ rest ∧ Derives front t' := by
  obtain ⟨middle, rfl, derived⟩ := derives_of_suffixes (.base h) read
  exact ⟨base ++ middle, by simp, by simpa using derived⟩

theorem exists_spaces (cs : List Char) : ∃ spaces, Spaces spaces ∧ cs = spaces ++ dropSpaces cs :=
  ⟨cs.takeWhile (· == ' '), fun c hc => by simpa using List.all_eq_true.1 List.all_takeWhile c hc,
    List.takeWhile_append_dropWhile.symm⟩

/-- Whatever the fuel, what is read derives its type. -/
theorem derives_of_read (source : List Char) (fuel : Nat) :
    (∀ {cs t rest}, type source fuel cs = some (.ok (t, rest)) →
      ∃ front, cs = front ++ rest ∧ Derives front t) ∧
    (∀ {cs ts rest}, items source fuel cs = some (.ok (ts, rest)) →
      ∃ front, cs = front ++ ')' :: rest ∧ Items front ts) := by
  induction fuel with
  | zero => exact ⟨nofun, nofun⟩
  | succ fuel ih =>
    obtain ⟨ofType, ofItems⟩ := ih
    constructor
    · intro cs t rest read
      unfold type at read
      split at read
      · cases read
      · cases read
      · exact derives_of_base .unit (Option.some.inj read)
      · next left _ _ same =>
        cases same
        split at read
        · cases read
        · cases read
        · next inner =>
          obtain ⟨front, rfl, items⟩ := ofItems inner
          simpa using derives_of_base (.tuple items) (Option.some.inj read)
      · next c cs _ _ =>
        split at read
        · split at read
          · cases read
          · next word =>
            have whole :=
              derives_of_base (.word (typeWord_of_ofWord word)) (Option.some.inj read)
            rwa [List.cons_append, List.takeWhile_append_dropWhile] at whole
        · cases read
    · intro cs ts rest read
      obtain ⟨before, spaces, same⟩ := exists_spaces cs
      unfold items at read
      split at read
      · cases read
      · cases read
      · next t middle first =>
        obtain ⟨front, eq, derived⟩ := ofType first
        obtain ⟨after, spaces', same'⟩ := exists_spaces middle
        rw [same, eq, same']
        split at read
        · next next' comma =>
          split at read
          · cases read
          · cases read
          · next others =>
            cases read
            obtain ⟨back, rfl, items⟩ := ofItems others
            exact ⟨_, by simp [comma], .more spaces derived spaces' items⟩
        · next closes =>
          cases read
          exact ⟨_, by simp [closes], .last spaces derived spaces'⟩
        · cases read

/-! ## What derives a type is read -/

/-- No word goes on with the text. -/
def EndsWord (rest : List Char) : Prop := ∀ c ∈ rest.head?, isWordChar c = false

/-- A letter and then letters and digits. -/
def IsWord (word : List Char) : Prop :=
  ∃ c tail, word = c :: tail ∧ Text.isLetter c = true ∧ ∀ c ∈ tail, isWordChar c = true

theorem endsWord_nil : EndsWord [] := nofun

theorem endsWord_cons {c : Char} {rest : List Char} (h : isWordChar c = false) :
    EndsWord (c :: rest) := by
  rintro _ ⟨⟩
  exact h

theorem isWord_of_all (c : Char) (tail : List Char) (letter : Text.isLetter c = true)
    (others : tail.all isWordChar = true) : IsWord (c :: tail) :=
  ⟨c, tail, rfl, letter, List.all_eq_true.1 others⟩

theorem IsWord.append {word more : List Char} (h : IsWord word)
    (others : ∀ c ∈ more, isWordChar c = true) : IsWord (word ++ more) := by
  obtain ⟨c, tail, rfl, letter, word⟩ := h
  exact ⟨c, tail ++ more, rfl, letter, List.forall_mem_append.2 ⟨word, others⟩⟩

theorem isWordChar_of_numeral {digits : List Char} {n : Nat} (h : Numeral digits n) :
    ∀ c ∈ digits, isWordChar c = true := by
  intro c hc
  rw [isWordChar, Text.isDigit_eq, h.digital c hc, Bool.or_true]

theorem isWordChar_of_integerWidth {width : List Char} {bits : Nat}
    (h : IntegerWidth width bits) : ∀ c ∈ width, isWordChar c = true := by
  cases h with
  | standard => exact nofun
  | written numeral _ => exact isWordChar_of_numeral numeral

theorem isWordChar_of_fixedPointWidths {widths : List Char} {bits decimals : Nat}
    (h : FixedPointWidths widths bits decimals) : ∀ c ∈ widths, isWordChar c = true := by
  cases h with
  | standard => exact nofun
  | written numeral _ numeral' _ _ =>
    exact List.forall_mem_append.2 ⟨isWordChar_of_numeral numeral,
      List.forall_mem_cons.2 ⟨by decide, isWordChar_of_numeral numeral'⟩⟩

/-- The words of types are words. -/
theorem isWord_of_typeWord {word : List Char} (h : TypeWord word t) : IsWord word := by
  cases h with
  | address => exact isWord_of_all 'a' "ddress".toList (by decide) (by decide)
  | bool => exact isWord_of_all 'b' "ool".toList (by decide) (by decide)
  | string => exact isWord_of_all 's' "tring".toList (by decide) (by decide)
  | function => exact isWord_of_all 'f' "unction".toList (by decide) (by decide)
  | bytes => exact isWord_of_all 'b' "ytes".toList (by decide) (by decide)
  | uint h =>
    exact (isWord_of_all 'u' "int".toList (by decide) (by decide)).append
      (isWordChar_of_integerWidth h)
  | int h =>
    exact (isWord_of_all 'i' "nt".toList (by decide) (by decide)).append
      (isWordChar_of_integerWidth h)
  | ufixed h =>
    exact (isWord_of_all 'u' "fixed".toList (by decide) (by decide)).append
      (isWordChar_of_fixedPointWidths h)
  | fixed h =>
    exact (isWord_of_all 'f' "ixed".toList (by decide) (by decide)).append
      (isWordChar_of_fixedPointWidths h)
  | fixedBytes numeral _ _ =>
    exact (isWord_of_all 'b' "ytes".toList (by decide) (by decide)).append
      (isWordChar_of_numeral numeral)

/-- A type begins with a letter or with a bracket. -/
def BeginsType (cs : List Char) : Prop :=
  ∃ c tail, cs = c :: tail ∧ (Text.isLetter c = true ∨ c = '(')

theorem beginsType_base (h : Base cs t) : BeginsType cs := by
  cases h with
  | word word =>
    obtain ⟨c, tail, rfl, letter, -⟩ := isWord_of_typeWord word
    exact ⟨c, tail, rfl, .inl letter⟩
  | unit => exact ⟨'(', _, rfl, .inr rfl⟩
  | tuple items => exact ⟨'(', _, rfl, .inr rfl⟩

theorem beginsType {cs : List Char} {t : AbiType} : Derives cs t → BeginsType cs
  | .base base => beginsType_base base
  | .suffix derived suffix => by
    obtain ⟨c, tail, rfl, first⟩ := beginsType derived
    exact ⟨c, tail ++ _, rfl, first⟩

/-- The types of a tuple do not begin with its closing bracket. -/
theorem head_items {ts : List AbiType} (h : Items cs ts) : ∃ c tail, cs = c :: tail ∧ c ≠ ')' := by
  have begins : ∀ {before cs more : List Char} {t : AbiType}, Spaces before → Derives cs t →
      ∃ c tail, before ++ cs ++ more = c :: tail ∧ c ≠ ')' := by
    intro before cs more t spaces derived
    cases before with
    | nil =>
      obtain ⟨c, tail, rfl, first⟩ := beginsType derived
      refine ⟨c, tail ++ more, rfl, ?_⟩
      rintro rfl
      exact absurd first (by decide)
    | cons c before =>
      refine ⟨c, _, rfl, ?_⟩
      rw [spaces c List.mem_cons_self]
      decide
  cases h with
  | last spaces derived _ => exact begins spaces derived
  | more spaces derived _ _ =>
    rw [List.append_assoc]
    exact begins spaces derived

/-- A word is taken off the front of a text as a whole. -/
theorem type_word {word rest : List Char} (h : TypeWord word t) (ends : EndsWord rest)
    (fuel : Nat) :
    type source (fuel + 1) (word ++ rest) = some (suffixes source t none rest) := by
  obtain ⟨c, tail, rfl, letter, others⟩ := isWord_of_typeWord h
  have notOpen : c ≠ '(' := by
    rintro rfl
    exact absurd letter (by decide)
  rw [List.cons_append, type]
  · rw [if_pos letter, takeWhile_append_of_stop others ends, ofWord_of_typeWord h]
    simp only [dropWhile_append_of_stop others ends]
  · exact fun _ h _ => notOpen h
  · exact fun h => notOpen h

theorem suffixes_digits {digits : List Char} (h : ∀ c ∈ digits, c.isDigit = true)
    (before : List Char) :
    suffixes source t (some before) (digits ++ rest) =
      suffixes source t (some (before ++ digits)) rest := by
  induction digits generalizing before with
  | nil => rw [List.nil_append, List.append_nil]
  | cons c digits ih =>
    obtain ⟨first, others⟩ := List.forall_mem_cons.1 h
    rw [List.cons_append, suffixes, if_pos (by rwa [Text.isDigit_eq]), ih others,
      List.append_assoc]
    rfl

/-- A suffix is taken off the front of a text. -/
theorem suffixes_suffix {ds : List Char} (h : Suffix t ds t') :
    suffixes source t none (ds ++ rest) = suffixes source t' none rest := by
  cases h with
  | array => rfl
  | @fixedArray digits length numeral one small =>
    have counted : Text.readCount? Text.maxWord64 digits = some length :=
      readCount?_eq_some_iff.2 ⟨numeral, Nat.le_sub_one_of_lt small⟩
    have made : sized source t digits rest = .ok (.fixedArray t length) := by
      obtain ⟨n, rfl⟩ := Nat.exists_eq_add_of_le' one
      rw [sized, if_neg (by simp [numeral.nonempty]), counted]
      rfl
    rw [List.append_assoc, List.cons_append, suffixes, if_pos rfl,
      suffixes_digits numeral.digital, List.nil_append, List.cons_append, suffixes,
      if_neg (by decide), if_pos rfl, List.nil_append, made]

theorem endsWord_suffix {ds : List Char} (h : Suffix t ds t') : EndsWord (ds ++ rest) := by
  cases h with
  | array => exact endsWord_cons (by decide)
  | fixedArray _ _ _ => exact endsWord_cons (by decide)

theorem dropSpaces_append {spaces : List Char} (h : Spaces spaces)
    (stop : ∀ c ∈ rest.head?, c ≠ ' ') : dropSpaces (spaces ++ rest) = rest :=
  dropWhile_append_of_stop (fun c hc => by simp [h c hc]) (fun c hc => by simp [stop c hc])

theorem suffixes_stop (stop : ∀ c ∈ rest.head?, c ≠ '[') :
    suffixes source t none rest = .ok (t, rest) := by
  cases rest with
  | nil => rfl
  | cons c rest => exact if_neg (stop c rfl)

/-- A type of a tuple is read up to the comma or the bracket after it. -/
theorem type_item {before after : List Char} {c : Char} {fuel : Nat} (begins : BeginsType cs)
    (spaces : Spaces before) (spaces' : Spaces after) (closes : c = ',' ∨ c = ')')
    (read : EndsWord (after ++ c :: rest) → type source fuel (cs ++ (after ++ c :: rest)) =
      some (suffixes source t none (after ++ c :: rest))) :
    type source fuel (dropSpaces (before ++ (cs ++ (after ++ c :: rest)))) =
        some (.ok (t, after ++ c :: rest)) ∧ dropSpaces (after ++ c :: rest) = c :: rest := by
  obtain ⟨b, tail, rfl, first⟩ := begins
  have notSpace : ∀ d ∈ (b :: tail ++ (after ++ c :: rest)).head?, d ≠ ' ' := by
    rintro _ ⟨⟩ rfl
    exact absurd first (by decide)
  have next : ∀ d ∈ (after ++ c :: rest).head?, d = ' ' ∨ d = ',' ∨ d = ')' := by
    cases after with
    | nil =>
      rintro _ ⟨⟩
      exact .inr closes
    | cons a after =>
      rintro _ ⟨⟩
      exact .inl (spaces' a List.mem_cons_self)
  have ends : EndsWord (after ++ c :: rest) := by
    intro d hd
    rcases next d hd with rfl | rfl | rfl <;> decide
  have stop : ∀ d ∈ (after ++ c :: rest).head?, d ≠ '[' := by
    intro d hd
    rcases next d hd with rfl | rfl | rfl <;> decide
  refine ⟨?_, dropSpaces_append spaces' ?_⟩
  · rw [dropSpaces_append spaces notSpace, read ends, suffixes_stop stop]
  · rintro _ ⟨⟩
    rcases closes with rfl | rfl <;> decide

/-- A tuple is read if its types are. -/
theorem type_tuple {ts : List AbiType} {fuel : Nat} (h : Items cs ts)
    (inner : items source fuel (cs ++ ')' :: rest) = some (.ok (ts, rest))) :
    type source (fuel + 1) ('(' :: (cs ++ ')' :: rest)) =
      some (suffixes source (.tuple ts) none rest) := by
  obtain ⟨c, tail, same, notClosed⟩ := head_items h
  subst same
  rw [List.cons_append] at inner ⊢
  rw [type]
  · rw [inner]
  · exact fun _ h => notClosed (List.cons.inj h).1

mutual

/-- The reader takes a base off the front of a text. -/
theorem type_base (source : List Char) {cs : List Char} {t : AbiType} : Base cs t →
    ∀ (fuel : Nat) (rest : List Char), cs.length ≤ fuel → EndsWord rest →
      type source fuel (cs ++ rest) = some (suffixes source t none rest)
  | .word word => by
    intro fuel rest enough ends
    obtain ⟨c, tail, rfl, -⟩ := isWord_of_typeWord word
    obtain ⟨left, rfl⟩ : ∃ left, fuel = left + 1 := ⟨fuel - 1, by simp at enough; omega⟩
    exact type_word word ends left
  | .unit => by
    intro fuel rest enough ends
    obtain ⟨left, rfl⟩ : ∃ left, fuel = left + 1 := ⟨fuel - 1, by simp at enough; omega⟩
    rfl
  | .tuple items => by
    intro fuel rest enough ends
    simp only [List.length_append, List.length_cons, List.length_nil] at enough
    obtain ⟨left, rfl⟩ : ∃ left, fuel = left + 1 := ⟨fuel - 1, by omega⟩
    have inner := items_items source items left rest (by omega)
    simpa using type_tuple items inner

/-- It takes a type off the front of a text. -/
theorem type_derives (source : List Char) {cs : List Char} {t : AbiType} : Derives cs t →
    ∀ (fuel : Nat) (rest : List Char), cs.length ≤ fuel → EndsWord rest →
      type source fuel (cs ++ rest) = some (suffixes source t none rest)
  | .base base => type_base source base
  | .suffix derived suffix => by
    intro fuel rest enough ends
    rw [List.length_append] at enough
    rw [List.append_assoc, type_derives source derived fuel _ (by omega) (endsWord_suffix suffix),
      suffixes_suffix suffix]

/-- It takes the types of a tuple up to the closing bracket. -/
theorem items_items (source : List Char) {cs : List Char} {ts : List AbiType} : Items cs ts →
    ∀ (fuel : Nat) (rest : List Char), cs.length < fuel →
      items source fuel (cs ++ ')' :: rest) = some (.ok (ts, rest))
  | .last spaces derived spaces' => by
    intro fuel rest enough
    simp only [List.length_append] at enough
    obtain ⟨left, rfl⟩ : ∃ left, fuel = left + 1 := ⟨fuel - 1, by omega⟩
    have read := type_derives source derived left
    obtain ⟨first, closed⟩ := type_item (beginsType derived) spaces spaces' (.inr rfl)
      (read (_ ++ ')' :: rest) (by omega))
    simp only [List.append_assoc, items, first, closed]
  | @Items.more _ _ _ behind _ _ spaces derived spaces' others => by
    intro fuel rest enough
    simp only [List.length_append, List.length_cons] at enough
    obtain ⟨left, rfl⟩ : ∃ left, fuel = left + 1 := ⟨fuel - 1, by omega⟩
    have read := type_derives source derived left
    obtain ⟨first, parted⟩ := type_item (beginsType derived) spaces spaces' (.inl rfl)
      (read (_ ++ ',' :: (behind ++ ')' :: rest)) (by omega))
    simp only [List.append_assoc, List.cons_append, items, first, parted,
      items_items source others left rest (by omega)]

end

/-! ## The reader ends -/

theorem length_dropSpaces_le (cs : List Char) : (dropSpaces cs).length ≤ cs.length :=
  (List.dropWhile_suffix _).length_le

/-- A reader has an answer, and with more fuel the same one. -/
structure Ends {α : Type} (read : Nat → Option α) (fuel : Nat) : Prop where
  answers : read fuel ≠ none
  stable : ∀ more, fuel ≤ more → read more = read fuel

theorem Ends.exists_answer {α : Type} {read : Nat → Option α} {fuel : Nat} (h : Ends read fuel) :
    ∃ answer, ∀ more, fuel ≤ more → read more = some answer := by
  obtain ⟨answer, given⟩ := Option.ne_none_iff_exists'.1 h.answers
  exact ⟨answer, fun more least => (h.stable more least).trans given⟩

/-- A step of a reader ends where the step with one more does. -/
theorem Ends.of_succ {α : Type} {read : Nat → Option α} {fuel : Nat}
    (answers : read (fuel + 1) ≠ none)
    (stable : ∀ more, fuel ≤ more → read (more + 1) = read (fuel + 1)) : Ends read (fuel + 1) := by
  refine ⟨answers, fun more least => ?_⟩
  obtain ⟨more, rfl⟩ := Nat.exists_eq_add_of_le' (Nat.le_trans (Nat.le_add_left 1 fuel) least)
  exact stable more (Nat.le_of_succ_le_succ least)

/-- The fuel for a type is spent on the types of a tuple only. -/
theorem type_ends {fuel : Nat}
    (inner : ∀ left, cs = '(' :: left → Ends (fun more => items source more left) fuel) :
    Ends (fun more => type source more cs) (fuel + 1) := by
  refine .of_succ ?_ fun more least => ?_
  · unfold type
    split
    · next none => cases none
    · simp
    · simp
    · next left =>
      cases left
      have answers := (inner _ rfl).answers
      split <;> simp_all
    · split
      · split <;> simp
      · simp
  · unfold type
    split
    · next none => cases none
    · rfl
    · rfl
    · next left =>
      cases left
      simp only [(inner _ rfl).stable more least]
    · rfl

/-- The fuel for the types of a tuple is spent on the first and on those after a comma. -/
theorem items_ends {fuel : Nat} (first : Ends (fun more => type source more (dropSpaces cs)) fuel)
    (others : ∀ t rest left, type source fuel (dropSpaces cs) = some (.ok (t, rest)) →
      dropSpaces rest = ',' :: left → Ends (fun more => items source more left) fuel) :
    Ends (fun more => items source more cs) (fuel + 1) := by
  refine .of_succ ?_ fun more least => ?_
  · unfold items
    split
    · next none => exact absurd none first.answers
    · simp
    · next t rest read =>
      split
      · next left comma =>
        have answers := (others t rest left read comma).answers
        split <;> simp_all
      · simp
      · simp
  · have same : type source more (dropSpaces cs) = type source fuel (dropSpaces cs) :=
      first.stable more least
    simp only [items, same]
    split
    · rfl
    · rfl
    · next t rest read =>
      split
      · next left comma => simp only [(others t rest left read comma).stable more least]
      · rfl
      · rfl

/-- Fuel of twice the length of the text and one is enough. The one is for the types of
a tuple, which may begin where the tuple does. -/
theorem read_ends (source : List Char) (fuel : Nat) :
    (∀ cs, 2 * cs.length < fuel → Ends (fun more => type source more cs) fuel) ∧
    (∀ cs, 2 * cs.length + 1 < fuel → Ends (fun more => items source more cs) fuel) := by
  induction fuel with
  | zero => exact ⟨nofun, nofun⟩
  | succ fuel ih =>
    obtain ⟨ofType, ofItems⟩ := ih
    constructor
    · intro cs enough
      refine type_ends fun left same => ofItems left ?_
      simp only [same, List.length_cons] at enough
      omega
    · intro cs enough
      have spaces := length_dropSpaces_le cs
      refine items_ends (ofType _ (by omega)) ?_
      intro t rest left read comma
      obtain ⟨front, same, -⟩ := (derives_of_read source fuel).1 read
      have spaces' := length_dropSpaces_le rest
      have shorter : (dropSpaces cs).length = front.length + rest.length := by
        rw [same, List.length_append]
      rw [comma, List.length_cons] at spaces'
      exact ofItems left (by omega)

end AbiType.Reader

namespace AbiType

open Grammar Reader

/-- A name is of a type if it derives the type, blanks at its ends apart. -/
theorem ofName_eq_ok_iff {text : String} {t : AbiType} :
    ofName text = .ok t ↔ Derives (Text.trimList text.toList) t := by
  unfold ofName
  dsimp only
  constructor
  · intro read
    split at read
    · cases read
    · split at read
      · cases read
      · cases read
      · next found =>
        cases read
        obtain ⟨front, same, derived⟩ := (derives_of_read _ _).1 found
        rwa [same, List.append_nil]
      · cases read
  · intro derived
    obtain ⟨c, tail, begins, -⟩ := beginsType derived
    have notEmpty : (Text.trimList text.toList).isEmpty = false := by
      rw [begins]
      rfl
    have whole := type_derives (Text.trimList text.toList) derived
      (fuelFor (Text.trimList text.toList)) [] (by unfold fuelFor; omega) endsWord_nil
    rw [List.append_nil] at whole
    simp only [notEmpty, whole]
    rfl

/-- Every type that is read is well formed. -/
theorem wellFormed_of_ofName {text : String} {t : AbiType} (read : ofName text = .ok t) :
    t.WellFormed := (ofName_eq_ok_iff.1 read).wellFormed

/-- **The reader accepts exactly its grammar.** A text is the name of a type if and only
if it derives the type once the blanks at its ends are dropped. Every type that is read is
well formed. The reader ends on every text: the fuel that it is given does not run out, and
with any more it gives the same answer. -/
theorem ofName_accepts_grammar :
    (∀ (text : String) (t : AbiType),
      ofName text = .ok t ↔ Derives (Text.trimList text.toList) t) ∧
    (∀ (text : String) (t : AbiType), ofName text = .ok t → t.WellFormed) ∧
    (∀ source : List Char, ∃ answer, ∀ fuel, fuelFor source ≤ fuel →
      Reader.type source fuel source = some answer) :=
  ⟨fun _ _ => ofName_eq_ok_iff, fun _ _ => wellFormed_of_ofName, fun source =>
    ((read_ends source (fuelFor source)).1 source (by unfold fuelFor; omega)).exists_answer⟩

theorem ofName_accepts_grammar_spaced :
    ofName "\n( bool,string )[] " = .ok (.array (.tuple [.number .bool, .string])) := by
  have nothing : Spaces [] := nofun
  have space : Spaces [' '] := List.forall_mem_singleton.2 rfl
  have last : Items ([] ++ "string".toList ++ [' ']) [.string] :=
    .last nothing (.base (.word .string)) space
  have items : Items ([' '] ++ "bool".toList ++ [] ++ ',' :: ([] ++ "string".toList ++ [' ']))
      [.number .bool, .string] := .more space (.base (.word .bool)) nothing last
  exact (ofName_accepts_grammar.1 _ _).2 (.suffix (.base (.tuple items)) .array)

end AbiType
end GuardedCalls
