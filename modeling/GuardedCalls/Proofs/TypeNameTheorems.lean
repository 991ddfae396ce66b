/-
GuardedCalls.Proofs.TypeNameTheorems — the names of types, and what the reader
makes of them.

* `derives_chars` — the canonical name of a well-formed type derives the type.
  The induction is on the type; `items_tailChars` is its other half, which adds
  the types of a tuple to a first one.
* `trimList_of_derives` — what derives a type has no blanks at its ends, so a
  name is read as it stands.
* `ofName_of_mem_lookupNames` — each name under which rules may know a type
  reads as that type.
-/
import GuardedCalls.Proofs.TypeGrammarTheorems

namespace GuardedCalls

/-! ## Blanks -/

namespace Text

theorem isBlank_eq_false_of_ascii {c : Char} (above : 0x20 < c.toNat) (below : c.toNat < 0x85) :
    isBlank c = false := by
  simp only [isBlank, blankRanges, List.any_cons, List.any_nil, Bool.or_eq_false_iff,
    Bool.and_eq_false_iff, decide_eq_false_iff_not, Nat.not_le, and_true]
  omega

/-- A text whose ends are not blank is not cut. -/
theorem trimList_eq {cs : List Char} (first : ∀ c ∈ cs.head?, isBlank c = false)
    (last : ∀ c ∈ cs.getLast?, isBlank c = false) : trimList cs = cs := by
  have keeps : ∀ {cs : List Char}, (∀ c ∈ cs.head?, isBlank c = false) →
      cs.dropWhile isBlank = cs := by
    intro cs first
    cases cs with
    | nil => rfl
    | cons c cs => exact List.dropWhile_cons_of_neg (by simp [first c rfl])
  rw [trimList, keeps first, keeps (by rwa [List.head?_reverse]), List.reverse_reverse]

end Text

namespace AbiType.Reader

open Grammar

/-- Letters and digits are not blank. -/
theorem isBlank_of_isWordChar {c : Char} (h : isWordChar c = true) : Text.isBlank c = false := by
  have range : ∀ a b : Char, 0x20 < a.toNat → b.toNat < 0x85 → a ≤ c ∧ c ≤ b →
      Text.isBlank c = false := fun a b above below inside =>
    Text.isBlank_eq_false_of_ascii (Nat.lt_of_lt_of_le above inside.1)
      (Nat.lt_of_le_of_lt inside.2 below)
  simp only [isWordChar, Text.isLetter, Text.isDigit, Text.digit?, Bool.or_eq_true,
    decide_eq_true_eq] at h
  rcases h with (small | capital) | digit
  · exact range 'a' 'z' (by decide) (by decide) small
  · exact range 'A' 'Z' (by decide) (by decide) capital
  · split at digit
    · next inside => exact range '0' '9' (by decide) (by decide) inside
    · cases digit

/-- The text ends with a character that is not blank. -/
def EndsDark (cs : List Char) : Prop := ∃ front c, cs = front ++ [c] ∧ Text.isBlank c = false

theorem IsWord.endsDark {word : List Char} (h : IsWord word) : EndsDark word := by
  obtain ⟨c, tail, rfl, letter, others⟩ := h
  rcases List.eq_nil_or_concat tail with rfl | ⟨front, last, rfl⟩
  · exact ⟨[], c, rfl, isBlank_of_isWordChar (by rw [isWordChar, letter, Bool.true_or])⟩
  · exact ⟨c :: front, last, by simp, isBlank_of_isWordChar (others last (by simp))⟩

theorem endsDark_of_derives {cs : List Char} {t : AbiType} (h : Derives cs t) : EndsDark cs := by
  cases h with
  | base base =>
    cases base with
    | word word => exact (isWord_of_typeWord word).endsDark
    | unit => exact ⟨['('], ')', rfl, by decide⟩
    | tuple items => exact ⟨_, ')', rfl, by decide⟩
  | @suffix cs _ _ _ _ suffix =>
    cases suffix with
    | array => exact ⟨cs ++ ['['], ']', by simp, by decide⟩
    | @fixedArray digits _ _ _ _ => exact ⟨cs ++ '[' :: digits, ']', by simp, by decide⟩

/-- What derives a type has no blanks at its ends. -/
theorem trimList_of_derives {cs : List Char} {t : AbiType} (h : Derives cs t) :
    Text.trimList cs = cs := by
  refine Text.trimList_eq ?_ ?_
  · obtain ⟨c, tail, rfl, first⟩ := beginsType h
    rintro _ ⟨⟩
    rcases first with letter | rfl
    · exact isBlank_of_isWordChar (by rw [isWordChar, letter, Bool.true_or])
    · decide
  · obtain ⟨front, c, rfl, dark⟩ := endsDark_of_derives h
    rw [List.getLast?_append]
    rintro _ ⟨⟩
    exact dark

end AbiType.Reader

/-! ## The canonical name derives the type -/

namespace AbiType.Grammar

theorem numeral_decimalChars (n : Nat) : Numeral (decimalChars n) n where
  nonempty := Nat.toDigits_ne_nil
  digital := fun _ h => Nat.isDigit_of_mem_toDigits (by decide) (by decide) h
  denotes := Nat.ofDigitChars_ten_toDigits

/-- The canonical name of a number type is a word. -/
theorem typeWord_number {type : NumberType} (wf : type.WellFormed) :
    TypeWord type.chars (.number type) := by
  have fixedPoint : ∀ {bits decimals}, IsWidth bits ∧ 1 ≤ decimals ∧ decimals ≤ 80 →
      FixedPointWidths (decimalChars bits ++ 'x' :: decimalChars decimals) bits decimals :=
    fun ⟨isWidth, one, most⟩ =>
      .written (numeral_decimalChars _) isWidth (numeral_decimalChars _) one most
  cases type with
  | uint bits => exact .uint (.written (numeral_decimalChars bits) wf)
  | int bits => exact .int (.written (numeral_decimalChars bits) wf)
  | ufixed bits decimals =>
    have word := TypeWord.ufixed (fixedPoint wf)
    rwa [← List.append_assoc] at word
  | fixed bits decimals =>
    have word := TypeWord.fixed (fixedPoint wf)
    rwa [← List.append_assoc] at word
  | address => exact .address
  | bool => exact .bool

theorem chars_fixedBytes (size : Nat) :
    (fixedBytes size).chars = "bytes".toList ++ decimalChars size := rfl

theorem chars_fixedArray (element : AbiType) (length : Nat) :
    (fixedArray element length).chars = element.chars ++ '[' :: decimalChars length ++ [']'] := rfl

theorem chars_tuple (t : AbiType) (ts : List AbiType) :
    (tuple (t :: ts)).chars = '(' :: t.chars ++ tailChars ts := rfl

mutual

/-- The canonical name of a type derives it. -/
theorem derives_chars : (t : AbiType) → t.WellFormed → Derives t.chars t
  | .number type, wf => .base (.word (typeWord_number wf))
  | .fixedBytes size, wf => by
    rw [chars_fixedBytes]
    exact .base (.word (.fixedBytes (numeral_decimalChars size) wf.1 wf.2))
  | .function, _ => .base (.word .function)
  | .bytes, _ => .base (.word .bytes)
  | .string, _ => .base (.word .string)
  | .fixedArray element length, wf => by
    obtain ⟨wf, one, small⟩ := wf
    rw [chars_fixedArray, List.append_assoc]
    exact .suffix (derives_chars element wf) (.fixedArray (numeral_decimalChars length) one small)
  | .array element, wf => .suffix (derives_chars element wf) .array
  | .tuple [], _ => .base .unit
  | .tuple (t :: ts), wf => by
    obtain ⟨cs, same, items⟩ := items_tailChars ts wf.2 _ t (derives_chars t wf.1)
    rw [chars_tuple, List.cons_append, same]
    exact .base (.tuple items)

/-- The names of types and a bracket end a tuple that has begun. -/
theorem items_tailChars : (ts : List AbiType) → AllWellFormed ts →
    ∀ (front : List Char) (t : AbiType), Derives front t →
      ∃ cs, front ++ tailChars ts = cs ++ [')'] ∧ Items cs (t :: ts)
  | [], _ => by
    intro front t derived
    have alone : Items ([] ++ front ++ []) [t] := .last nofun derived nofun
    exact ⟨_, by simp [tailChars], alone⟩
  | u :: us, wf => by
    intro front t derived
    obtain ⟨cs, same, items⟩ := items_tailChars us wf.2 _ u (derives_chars u wf.1)
    have more : Items ([] ++ front ++ [] ++ ',' :: cs) (t :: u :: us) :=
      .more nofun derived nofun items
    exact ⟨_, by simp [tailChars, same], more⟩

end

end AbiType.Grammar

/-! ## Names are read -/

namespace AbiType

open Grammar Reader

/-- A canonical name reads as its type. -/
theorem ofName_name {t : AbiType} (wf : t.WellFormed) : ofName t.name = .ok t := by
  have derived := derives_chars t wf
  rw [ofName_eq_ok_iff, name, String.toList_ofList, trimList_of_derives derived]
  exact derived

/-- So does every name under which rules may know the type. -/
theorem ofName_of_mem_lookupNames {t : AbiType} (wf : t.WellFormed) {name : String}
    (h : name ∈ t.lookupNames) : ofName name = .ok t := by
  rcases List.mem_cons.1 h with rfl | short
  · exact ofName_name wf
  · rw [Option.mem_toList] at short
    unfold shortName? at short
    split at short
    all_goals cases short
    all_goals decide

/-- Well-formed types that share a name are the same. -/
theorem eq_of_mem_lookupNames {t u : AbiType} (wf : t.WellFormed) (wf' : u.WellFormed)
    {name : String} (h : name ∈ t.lookupNames) (h' : name ∈ u.lookupNames) : t = u := by
  have first := ofName_of_mem_lookupNames wf h
  have second := ofName_of_mem_lookupNames wf' h'
  exact Except.ok.inj (first.symm.trans second)

/-- **Names are canonical.** Every name under which rules may know a well-formed type, its
canonical name first, reads as that type. So no two of these types share a canonical name
or a name for lookup, and whatever text a type was read from, its canonical name reads as
the same type. -/
theorem names_canonical :
    (∀ t : AbiType, t.WellFormed →
      ofName t.name = .ok t ∧ ∀ name ∈ t.lookupNames, ofName name = .ok t) ∧
    (∀ t u : AbiType, t.WellFormed → u.WellFormed → t.name = u.name → t = u) ∧
    (∀ t u : AbiType, t.WellFormed → u.WellFormed →
      ∀ name, name ∈ t.lookupNames → name ∈ u.lookupNames → t = u) ∧
    (∀ (text : String) (t : AbiType), ofName text = .ok t → ofName t.name = .ok t) := by
  refine ⟨fun t wf => ⟨ofName_name wf, fun name h => ofName_of_mem_lookupNames wf h⟩, ?_, ?_, ?_⟩
  · intro t u wf wf' same
    have shared : t.name ∈ u.lookupNames := by
      rw [same]
      exact List.mem_cons_self
    exact eq_of_mem_lookupNames wf wf' List.mem_cons_self shared
  · intro t u wf wf' name h h'
    exact eq_of_mem_lookupNames wf wf' h h'
  · intro text t read
    exact ofName_name (wellFormed_of_ofName read)

theorem names_canonical_pairs :
    ofName "(uint256,bytes32[])[2]" =
      .ok (.fixedArray (.tuple [.number (.uint 256), .array (.fixedBytes 32)]) 2) := by
  have named : name (.fixedArray (.tuple [.number (.uint 256), .array (.fixedBytes 32)]) 2) =
      "(uint256,bytes32[])[2]" := rfl
  have wf : WellFormed (.fixedArray (.tuple [.number (.uint 256), .array (.fixedBytes 32)]) 2) :=
    ⟨⟨⟨by decide, by decide, by decide⟩, ⟨by decide, by decide⟩, trivial⟩, by decide, by decide⟩
  rw [← named]
  exact (names_canonical.1 _ wf).1

end AbiType

end GuardedCalls
