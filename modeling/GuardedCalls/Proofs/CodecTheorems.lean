/-
GuardedCalls.Proofs.CodecTheorems — values that are read back from their
encoding.

* `AbiValue.HasType` — the typing of values, up to the numbers in them; the
  check of any space of the type implies it.
* `AbiType.Solid`, `nesting` — what of a type decides whether its values are
  read back: it has no empty tuples, and how many readers it nests.
* `AbiType.dynamic_eq`, `leastWords_le` — what the writer reads off the value,
  whether it is static and how long it is at least, the reader reads off the
  type.
* `AbiType.reads_part` — a value is read from its part. The induction is on the
  type, one case for each constructor, with the lists of types beside it.
* `AbiType.decodeWithin_eq_or` — room that may be refused changes no value: whatever
  the data, the reader is refused room or does what it does where there is always some.
-/
import GuardedCalls.Proofs.LayoutTheorems
import GuardedCalls.Proofs.RuleBookTheorems

namespace GuardedCalls

open Abi

/-! ## Types of values -/

mutual

/-- The value is one of the type, if the numbers in it are in range. -/
inductive AbiValue.HasType : AbiValue → AbiType → Prop
  | number {v type} (shape : Space.hasShape type v = true) : HasType v (.number type)
  | fixedBytes (w size) : HasType (.fixedBytes w size) (.fixedBytes size)
  | function (f) : HasType (.function f) .function
  | bytes (bs) : HasType (.bytes bs) .bytes
  | string (text) : HasType (.string text) .string
  | fixedArray {vs element length} (size : vs.length = length)
      (items : ∀ v ∈ vs, HasType v element) : HasType (.fixedArray vs) (.fixedArray element length)
  | array {vs element} (items : ∀ v ∈ vs, HasType v element) : HasType (.array vs) (.array element)
  | tuple {vs types} (items : HaveTypes vs types) : HasType (.tuple vs) (.tuple types)

/-- The values are one of each type, in turn. -/
inductive AbiValue.HaveTypes : List AbiValue → List AbiType → Prop
  | nil : HaveTypes [] []
  | cons {v t vs ts} (first : HasType v t) (others : HaveTypes vs ts) :
      HaveTypes (v :: vs) (t :: ts)

end

namespace Space

theorem forall_of_forM {ε α : Type} {f : α → Except ε Unit} {as : List α}
    (h : as.forM f = .ok ()) : ∀ a ∈ as, f a = .ok () := by
  induction as with
  | nil => simp
  | cons a as ih =>
    obtain ⟨nothing, first, others⟩ := exists_of_bind_eq_ok h
    exact List.forall_mem_cons.2 ⟨first, ih others⟩

theorem accept_eq_ok_iff {space : Space} {v : AbiValue} {legal : Bool} :
    space.accept v legal = .ok () ↔ legal = true := by
  cases legal <;> simp [accept]

mutual

/-- What passes the check of a space is one of its type. -/
theorem hasType_of_check : (space : Space) → ∀ {v : AbiValue}, space.check v = .ok () →
    v.HasType space.type
  | .number type domain, v, h => by
    rw [check, accept_eq_ok_iff, Bool.and_eq_true] at h
    exact .number h.1
  | .fixedBytes size, v, h => by
    cases v with
    | fixedBytes w width =>
      rw [check, accept_eq_ok_iff, Bool.and_eq_true, decide_eq_true_eq] at h
      exact h.1 ▸ .fixedBytes w size
    | _ => simp [check] at h
  | .function, v, h => by
    cases v with
    | function f => exact .function f
    | _ => simp [check] at h
  | .bytes, v, h => by
    cases v with
    | bytes bs => exact .bytes bs
    | _ => simp [check] at h
  | .string, v, h => by
    cases v with
    | string text => exact .string text
    | _ => simp [check] at h
  | .fixedArray element length, v, h => by
    cases v with
    | fixedArray vs =>
      rw [check] at h
      split at h
      · next size =>
        exact .fixedArray size fun u hu => hasType_of_check element (forall_of_forM h u hu)
      · cases h
    | _ => simp [check] at h
  | .array element, v, h => by
    cases v with
    | array vs =>
      rw [check] at h
      exact .array fun u hu => hasType_of_check element (forall_of_forM h u hu)
    | _ => simp [check] at h
  | .tuple spaces, v, h => by
    cases v with
    | tuple vs =>
      rw [check] at h
      split at h
      · next size => exact .tuple (haveTypes_of_checkAll spaces size h)
      · cases h
    | _ => simp [check] at h

theorem haveTypes_of_checkAll : (spaces : List Space) → ∀ {vs : List AbiValue},
    spaces.length = vs.length → checkAll spaces vs = .ok () →
      AbiValue.HaveTypes vs (types spaces)
  | [], vs, size, _ => by
    cases vs with
    | nil => exact .nil
    | cons v vs => cases size
  | space :: spaces, vs, size, h => by
    cases vs with
    | nil => cases size
    | cons v vs =>
      obtain ⟨nothing, first, others⟩ := exists_of_bind_eq_ok h
      exact .cons (hasType_of_check space first)
        (haveTypes_of_checkAll spaces (Nat.succ.inj size) others)

end

end Space

/-! ## What decides whether values are read back -/

/-- A property of lists that is said item by item is one of all items. -/
theorem forall_mem_of_cons {α : Type} {P : α → Prop} {All : List α → Prop} (nil : All [])
    (cons : ∀ a as, All (a :: as) ↔ P a ∧ All as) (as : List α) : All as ↔ ∀ a ∈ as, P a := by
  induction as with
  | nil => simp [nil]
  | cons a as ih => rw [cons, ih, List.forall_mem_cons]

namespace AbiType

mutual

/-- There is no empty tuple in the type. -/
def Solid : AbiType → Prop
  | .fixedArray element _ => Solid element
  | .array element => Solid element
  | .tuple items => items ≠ [] ∧ AllSolid items
  | _ => True

def AllSolid : List AbiType → Prop
  | [] => True
  | t :: ts => Solid t ∧ AllSolid ts

end

mutual

/-- How many readers nest to read a value. -/
def nesting : AbiType → Nat
  | .bytes => 1
  | .string => 1
  | .array element => nesting element + 2
  | .fixedArray element _ => nesting element + 1
  | .tuple items => nestingAll items + 1
  | _ => 0

def nestingAll : List AbiType → Nat
  | [] => 0
  | t :: ts => max (nesting t) (nestingAll ts)

end

end AbiType

namespace AbiValue

theorem parts_eq_map (vs : List AbiValue) : parts vs = vs.map part := by
  induction vs with
  | nil => rfl
  | cons v vs ih => rw [parts, ih, List.map_cons]

end AbiValue

namespace AbiType

variable {t : AbiType} {ts : List AbiType} {v : AbiValue} {vs : List AbiValue}

/-- A number type travels as a number type that reads words in the same
way. -/
theorem exists_wire_number (type : NumberType) : ∃ wired : NumberType,
    wire (.number type) = .number wired ∧ ∀ w, wired.ofWord w = type.ofWord w := by
  cases type with
  | ufixed bits decimals => exact ⟨.uint bits, rfl, fun w => rfl⟩
  | fixed bits decimals => exact ⟨.int bits, rfl, fun w => rfl⟩
  | uint bits => exact ⟨_, rfl, fun w => rfl⟩
  | int bits => exact ⟨_, rfl, fun w => rfl⟩
  | address => exact ⟨_, rfl, fun w => rfl⟩
  | bool => exact ⟨_, rfl, fun w => rfl⟩

/-- A number is a word of which the type makes it. -/
theorem exists_word {type : NumberType} (shape : Space.hasShape type v = true) :
    ∃ w : Word, v.part = ⟨false, w.bytes⟩ ∧ type.ofWord w = v := by
  cases v with
  | uint w width =>
    refine ⟨w, rfl, ?_⟩
    cases type <;> simp_all [Space.hasShape, NumberType.ofWord]
  | int w width =>
    refine ⟨w, rfl, ?_⟩
    cases type <;> simp_all [Space.hasShape, NumberType.ofWord]
  | bool b =>
    refine ⟨BitVec.ofNat 256 b.toNat, rfl, ?_⟩
    cases type <;> simp_all [Space.hasShape, NumberType.ofWord]
    cases b <;> decide
  | address a =>
    refine ⟨a.toWord, rfl, ?_⟩
    cases type <;> simp_all [Space.hasShape, NumberType.ofWord, Address.ofWord, Address.toWord]
  | _ => cases type <;> simp [Space.hasShape] at shape

theorem any_eq_of_forall {α : Type} {p : α → Bool} {b : Bool} {as : List α} (filled : as ≠ [])
    (h : ∀ a ∈ as, p a = b) : as.any p = b := by
  cases b with
  | false => simpa using h
  | true => exact List.any_eq_true.2 ⟨_, List.head_mem filled, h _ (List.head_mem filled)⟩

mutual

/-- Whether values are static is said by their type. -/
theorem dynamic_eq : (t : AbiType) → t.WellFormed → ∀ {v : AbiValue}, v.HasType t →
    v.part.dynamic = t.wire.isDynamic
  | .number type, _, v, h => by
    cases h with
    | number shape =>
      obtain ⟨w, part, -⟩ := exists_word shape
      obtain ⟨wired, wire, -⟩ := exists_wire_number type
      simp [part, wire, isDynamic]
  | .fixedBytes size, _, v, h => by cases h; rfl
  | .function, _, v, h => by cases h; rfl
  | .bytes, _, v, h => by cases h; rfl
  | .string, _, v, h => by cases h; rfl
  | .fixedArray element length, wf, v, h => by
    cases h with
    | @fixedArray vs _ _ size items =>
      have filled : vs ≠ [] := List.ne_nil_of_length_pos (by have := wf.2.1; omega)
      have one := fun u hu => dynamic_eq element wf.1 (items u hu)
      simp only [AbiValue.part, AbiValue.parts_eq_map, List.any_map]
      exact any_eq_of_forall filled one
  | .array element, _, v, h => by cases h; rfl
  | .tuple ts, wf, v, h => by
    cases h with
    | tuple items => exact any_dynamic_eq ts wf items

theorem any_dynamic_eq : (ts : List AbiType) → AllWellFormed ts → ∀ {vs : List AbiValue},
    AbiValue.HaveTypes vs ts →
      (AbiValue.parts vs).any (·.dynamic) = anyDynamic (wireAll ts)
  | [], _, vs, h => by cases h; rfl
  | t :: ts, wf, vs, h => by
    cases h with
    | cons first others =>
      rw [AbiValue.parts, List.any_cons, dynamic_eq t wf.1 first, any_dynamic_eq ts wf.2 others]
      rfl

end

mutual

/-- A value is as long as its type says at least. -/
theorem leastWords_le : (t : AbiType) → ∀ {v : AbiValue}, v.HasType t →
    32 * t.wire.leastWords ≤ v.part.body.length
  | .number type, v, h => by
    cases h with
    | number shape =>
      obtain ⟨w, part, -⟩ := exists_word shape
      obtain ⟨wired, wire, -⟩ := exists_wire_number type
      simp [part, wire, leastWords]
  | .fixedBytes size, v, h => by cases h; simp [AbiValue.part, wire, leastWords]
  | .function, v, h => by cases h; simp [AbiValue.part, wire, leastWords]
  | .bytes, v, h => by cases h; simp [AbiValue.part, wire, leastWords]
  | .string, v, h => by cases h; simp [AbiValue.part, wire, leastWords]
  | .fixedArray element length, v, h => by
    cases h with
    | @fixedArray vs _ _ size items =>
      have all : ∀ p ∈ vs.map (·.part), 32 * element.wire.leastWords ≤ p.body.length := by
        simpa using fun u hu => leastWords_le element (items u hu)
      simp only [AbiValue.part, AbiValue.parts_eq_map, wire, leastWords]
      simpa [size] using least_layout all
  | .array element, v, h => by cases h; simp [AbiValue.part, wire, leastWords]
  | .tuple ts, v, h => by
    cases h with
    | tuple items => exact Nat.le_trans (leastWordsAll_le ts items) (length_layout _)

theorem leastWordsAll_le : (ts : List AbiType) → ∀ {vs : List AbiValue},
    AbiValue.HaveTypes vs ts →
      32 * leastWordsAll (wireAll ts) ≤ ((AbiValue.parts vs).map (·.body.length)).sum
  | [], vs, h => by simp [wireAll, leastWordsAll]
  | t :: ts, vs, h => by
    cases h with
    | cons first others =>
      have := leastWords_le t first
      have := leastWordsAll_le ts others
      simp only [wireAll, leastWordsAll, AbiValue.parts, List.map_cons, List.sum_cons]
      omega

end

mutual

/-- Where there is no empty tuple, every value has a word. -/
theorem Solid.leastWords_pos : (t : AbiType) → t.WellFormed → t.Solid → 1 ≤ t.wire.leastWords
  | .number type, _, _ => by
    obtain ⟨wired, wire, -⟩ := exists_wire_number type
    simp [wire, leastWords]
  | .fixedBytes size, _, _ => Nat.le_refl 1
  | .function, _, _ => Nat.le_refl 1
  | .bytes, _, _ => Nat.le_refl 1
  | .string, _, _ => Nat.le_refl 1
  | .fixedArray element length, wf, solid =>
    Nat.mul_pos wf.2.1 (Solid.leastWords_pos element wf.1 solid)
  | .array element, _, _ => Nat.le_refl 1
  | .tuple items, wf, solid => AllSolid.leastWordsAll_pos items solid.1 wf solid.2

theorem AllSolid.leastWordsAll_pos : (ts : List AbiType) → ts ≠ [] → AllWellFormed ts →
    AllSolid ts → 1 ≤ leastWordsAll (wireAll ts)
  | [], filled, _, _ => absurd rfl filled
  | t :: _, _, wf, solid =>
    Nat.le_add_right_of_le (Solid.leastWords_pos t wf.1 solid.1)

end

mutual

theorem Solid.not_hollow : (t : AbiType) → t.Solid → t.wire.isHollow = false
  | .number type, _ => by
    obtain ⟨wired, wire, -⟩ := exists_wire_number type
    simp [wire, isHollow]
  | .fixedBytes size, _ => rfl
  | .function, _ => rfl
  | .bytes, _ => rfl
  | .string, _ => rfl
  | .fixedArray element _, solid => Solid.not_hollow element solid
  | .array element, solid => Solid.not_hollow element solid
  | .tuple ts, solid => AllSolid.not_hollow ts solid.1 solid.2

theorem AllSolid.not_hollow : (ts : List AbiType) → ts ≠ [] → AllSolid ts →
    allHollow (wireAll ts) = false
  | [], filled, _ => absurd rfl filled
  | t :: ts, _, solid => by
    rw [wireAll, allHollow, Solid.not_hollow t solid.1]
    rfl

end

/-! ## Reading parts -/

mutual

/-- **A value is read from its part.** -/
theorem reads_part : (t : AbiType) → t.WellFormed → t.Solid → ∀ {v : AbiValue}, v.HasType t →
    Reads (t.wire.read .ample) t.nesting (Stands v.part) v
  | .number type, _, _, v, h => by
    cases h with
    | number shape =>
      obtain ⟨w, part, made⟩ := exists_word shape
      obtain ⟨wired, wire, same⟩ := exists_wire_number type
      intro c rest _ stands
      rw [part] at stands
      simp only [wire, read, Cursor.word_eq (Word.length_bytes w) stands, Word.ofBytes_bytes, same,
        made]
  | .fixedBytes size, _, _, v, h => by
    cases h with
    | fixedBytes w =>
      intro c rest _ stands
      simp only [wire, read, Cursor.word_eq (Word.length_bytes w) stands, Word.ofBytes_bytes]
  | .function, _, _, v, h => by
    cases h with
    | function f =>
      intro c rest _ stands
      have whole : (bigEndian 24 f.toNat ++ List.replicate 8 0).length = 32 := by simp
      simp only [wire, read, Cursor.word_eq whole stands, Word.ofBytes_front]
  | .bytes, _, _, v, h => by
    cases h with
    | bytes bs =>
      intro c rest fits stands
      simp only [wire, read, reads_packed bs c rest fits stands]
  | .string, _, _, v, h => by
    cases h with
    | string text =>
      intro c rest fits stands
      simp only [wire, read, reads_packed _ c rest fits stands, Text.Utf8.decodeLossy_encodeText]
  | .fixedArray element length, wf, solid, v, h => by
    have whole := h
    cases h with
    | @fixedArray vs _ _ size items =>
      subst size
      intro c rest fits stands
      -- There is an item, so the items say of the array what its type does.
      have dynamic : ((AbiValue.parts vs).any (·.dynamic)) = element.wire.isDynamic :=
        dynamic_eq _ wf whole
      have all : Reads (repeated (element.wire.read .ample) vs.length) element.nesting
          (StandAll (AbiValue.parts vs)) vs := by
        rw [AbiValue.parts_eq_map]
        exact reads_repeated fun u hu => reads_part element wf.1 solid (items u hu)
      simp only [wire, read, ← dynamic, reads_sequence all c rest fits stands]
  | .array element, wf, solid, v, h => by
    cases h with
    | @array vs _ items =>
      intro c rest fits stands
      simp only [AbiValue.part, AbiValue.parts_eq_map] at stands
      have one := fun u hu => reads_part element wf solid (items u hu)
      have all := reads_counted one (fun u hu => leastWords_le element (items u hu))
        (Solid.leastWords_pos element wf solid)
      simp only [wire, read, all c rest fits stands]
  | .tuple ts, wf, solid, v, h => by
    cases h with
    | @tuple vs _ items =>
      intro c rest fits stands
      have all := readAll_parts ts wf solid.2 items
      simp only [wire, read, ← any_dynamic_eq ts wf items, reads_sequence all c rest fits stands]

/-- Values are read in turn from theirs. -/
theorem readAll_parts : (ts : List AbiType) → AllWellFormed ts → AllSolid ts →
    ∀ {vs : List AbiValue}, AbiValue.HaveTypes vs ts →
      Reads (readAll .ample (wireAll ts)) (nestingAll ts) (StandAll (AbiValue.parts vs)) vs
  | [], _, _, vs, h => by
    cases h
    rintro c rest _ rfl
    simp only [wireAll, readAll]
  | t :: ts, wf, solid, vs, h => by
    cases h with
    | cons first others =>
      rintro c rest fits ⟨next, here, later⟩
      have one := reads_part t wf.1 solid.1 first c next
        (fits.mono (Nat.le_max_left _ _)) here
      have all := readAll_parts ts wf.2 solid.2 others _ rest
        ((fits.next here.length_le).mono (Nat.le_max_right _ _)) later
      simp only [wireAll, readAll, one, all]

end

/-! ## Room that may be refused -/

/-- What is read is the other thing, or there was no room to read it. -/
def Agrees {α : Type} (limited ample : Except DecodeFault α) : Prop :=
  limited = ample ∨ ∃ reason, limited = .error (.noRoom reason)

section Agrees

variable {α : Type} {least : Nat} {room : Room} {c : Cursor}
  {read read' : Cursor → Except DecodeFault (AbiValue × Cursor)}
  {readItems readItems' : Cursor → Except DecodeFault (List AbiValue × Cursor)}

theorem agrees_repeated (one : ∀ c, Agrees (read c) (read' c)) (count : Nat) (c : Cursor) :
    Agrees (repeated read count c) (repeated read' count c) := by
  induction count generalizing c with
  | zero => exact .inl rfl
  | succ count ih =>
    unfold repeated
    rcases one c with same | ⟨reason, refused⟩
    · rw [same]
      cases read' c with
      | error e => exact .inl rfl
      | ok p =>
        rcases ih p.2 with same | ⟨reason, refused⟩
        · exact .inl (by simp only [same])
        · exact .inr ⟨reason, by simp only [refused]⟩
    · exact .inr ⟨reason, by rw [refused]⟩

theorem agrees_sequence (all : ∀ c, Agrees (readItems c) (readItems' c)) (dynamic : Bool) :
    Agrees (Abi.sequence dynamic readItems c) (Abi.sequence dynamic readItems' c) := by
  unfold Abi.sequence
  cases dynamic with
  | false =>
    cases c.nested c.rest with
    | error e => exact .inl rfl
    | ok inner =>
      rcases all inner with same | ⟨reason, refused⟩
      · exact .inl (by simp [same])
      · exact .inr ⟨reason, by simp [refused]⟩
  | true =>
    cases c.indirect with
    | error e => exact .inl rfl
    | ok p =>
      rcases all p.1 with same | ⟨reason, refused⟩
      · exact .inl (by simp [same])
      · exact .inr ⟨reason, by simp [refused]⟩

theorem agrees_counted (one : ∀ c, Agrees (read c) (read' c)) :
    Agrees (counted room least read c) (counted .ample least read' c) := by
  unfold counted
  cases c.indirect with
  | error e => exact .inl rfl
  | ok p =>
    dsimp only
    cases p.1.size with
    | error e => exact .inl rfl
    | ok sized =>
      obtain ⟨_ | count, behind⟩ := sized
      · exact .inl rfl
      · simp only
        cases behind.nested behind.rest with
        | error e => exact .inl rfl
        | ok items =>
          dsimp only
          split
          · exact .inl rfl
          · cases room.refusesItems (count + 1) with
            | some reason => exact .inr ⟨reason, rfl⟩
            | none =>
              rcases agrees_repeated one (count + 1) items with same | ⟨reason, refused⟩
              · exact .inl (by simp only [same, Room.ample])
              · exact .inr ⟨reason, by simp only [refused]⟩

theorem agrees_readFrom {read read' : Cursor → Except DecodeFault (α × Cursor)}
    (all : ∀ c, Agrees (read c) (read' c)) (data : List UInt8) (least : Nat)
    (refusal : Option String) :
    Agrees (readFrom data least refusal read) (readFrom data least none read') := by
  unfold readFrom
  split
  · exact .inl rfl
  · cases refusal with
    | some reason => exact .inr ⟨reason, rfl⟩
    | none =>
      rcases all (Cursor.start data) with same | ⟨reason, refused⟩
      · exact .inl (by rw [same])
      · exact .inr ⟨reason, by rw [refused]⟩

end Agrees

mutual

/-- A reader that may be refused room reads no other values. -/
theorem agrees_read (room : Room) : (t : AbiType) → ∀ c : Cursor,
    Agrees (t.read room c) (t.read .ample c)
  | .number type, c => .inl rfl
  | .fixedBytes size, c => .inl rfl
  | .function, c => .inl rfl
  | .bytes, c => .inl rfl
  | .string, c => .inl rfl
  | .fixedArray element length, c => by
    have all := agrees_repeated (agrees_read room element) length
    unfold read
    rcases agrees_sequence all element.isDynamic with same | ⟨reason, refused⟩
    · exact .inl (by rw [same])
    · exact .inr ⟨reason, by rw [refused]⟩
  | .array element, c => by
    unfold read
    rcases agrees_counted (agrees_read room element) with same | ⟨reason, refused⟩
    · exact .inl (by rw [same])
    · exact .inr ⟨reason, by rw [refused]⟩
  | .tuple ts, c => by
    unfold read
    rcases agrees_sequence (agrees_readAll room ts) (anyDynamic ts) with same | ⟨reason, refused⟩
    · exact .inl (by rw [same])
    · exact .inr ⟨reason, by rw [refused]⟩

theorem agrees_readAll (room : Room) : (ts : List AbiType) → ∀ c : Cursor,
    Agrees (readAll room ts c) (readAll .ample ts c)
  | [], c => .inl rfl
  | t :: ts, c => by
    unfold readAll
    rcases agrees_read room t c with same | ⟨reason, refused⟩
    · rw [same]
      cases t.read .ample c with
      | error e => exact .inl rfl
      | ok p =>
        rcases agrees_readAll room ts p.2 with same | ⟨reason, refused⟩
        · exact .inl (by simp only [same])
        · exact .inr ⟨reason, by simp only [refused]⟩
    · exact .inr ⟨reason, by rw [refused]⟩

end

/-- **The room that there is changes no result.** What is decoded as far as there is room is
what is decoded where there is always some, if room is not refused. -/
theorem decodeWithin_eq_or (room : Room) (t : AbiType) (data : List UInt8) :
    t.decodeWithin room data = t.decode data ∨
      ∃ reason, t.decodeWithin room data = .error ⟨t.name, .noRoom reason⟩ := by
  unfold decode decodeWithin
  split
  · exact .inl rfl
  · rcases agrees_readFrom (agrees_read room t.wire) data t.wire.leastWords
      (room.refusesType t.wire) with same | ⟨reason, refused⟩
    · exact .inl (by simp only [same, Room.ample])
    · exact .inr ⟨reason, by rw [refused]⟩

/-- Nor of an argument list. -/
theorem decodeAllWithin_eq_or (room : Room) (ts : List AbiType) (data : List UInt8) :
    decodeAllWithin room ts data = decodeAll ts data ∨
      ∃ reason, decodeAllWithin room ts data = .error ⟨(tuple ts).name, .noRoom reason⟩ := by
  unfold decodeAll decodeAllWithin
  dsimp only
  split
  · exact .inl rfl
  · rcases agrees_readFrom (agrees_readAll room (wireAll ts)) data (leastWordsAll (wireAll ts))
      (room.refusesType (.tuple (wireAll ts))) with same | ⟨reason, refused⟩
    · exact .inl (by simp only [same, Room.ample])
    · exact .inr ⟨reason, by rw [refused]⟩

end AbiType

end GuardedCalls
