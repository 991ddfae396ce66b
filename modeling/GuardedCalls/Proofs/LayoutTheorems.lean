/-
GuardedCalls.Proofs.LayoutTheorems — sequences that are read back as what was
laid out.

* `Stands`, `StandAll` — a part, and all parts of a sequence, are at a place in
  the data: a static part is what comes next, of any other one the distance
  comes next and the bytes are where it leads.
* `standAll_layout` — the parts of a layout stand at its beginning, whatever
  follows the layout. The induction is on the parts, with the distance to the
  first tail left open.
* `Reads` — a reader gives a value wherever some parts stand, and goes on
  behind their heads. Each way to read a sequence has one lemma, which takes
  `Reads` of the items to `Reads` of the whole.
-/
import GuardedCalls.Abi.Decoding
import GuardedCalls.Abi.Encoding
import GuardedCalls.Proofs.ByteTheorems

namespace GuardedCalls.Abi

/-! ## Lengths -/

@[simp] theorem length_wordBytes (n : Nat) : (wordBytes n).length = 32 := Word.length_bytes _

theorem length_heads (offset : Nat) (ps : List Part) : (heads offset ps).length = headsSize ps := by
  induction ps generalizing offset with
  | nil => rfl
  | cons p ps ih =>
    rw [heads, headsSize, Part.headSize]
    split <;> simp [ih]

theorem tails_cons (p : Part) (ps : List Part) :
    tails (p :: ps) = (if p.dynamic then p.body else []) ++ tails ps := rfl

/-- Parts that are all static have no tails. -/
theorem tails_of_static {ps : List Part} (static : ps.any (·.dynamic) = false) : tails ps = [] := by
  induction ps with
  | nil => rfl
  | cons p ps ih =>
    obtain ⟨first, others⟩ := Bool.or_eq_false_iff.1 (List.any_cons ▸ static)
    rw [tails_cons, ih others, first]
    rfl

/-- A layout holds all bodies. -/
theorem length_layout (ps : List Part) : ((ps.map (·.body.length)).sum) ≤ (layout ps).length := by
  rw [layout, List.length_append, length_heads]
  induction ps with
  | nil => exact Nat.le_refl 0
  | cons p ps ih =>
    simp only [List.map_cons, List.sum_cons, headsSize, Part.headSize, tails_cons,
      List.length_append]
    cases p.dynamic <;> simp <;> omega

/-- Items of so many words fill as much of a layout. -/
theorem least_layout {ps : List Part} {least : Nat} (h : ∀ p ∈ ps, 32 * least ≤ p.body.length) :
    32 * (ps.length * least) ≤ (layout ps).length := by
  refine Nat.le_trans ?_ (length_layout ps)
  induction ps with
  | nil => simp
  | cons p ps ih =>
    obtain ⟨first, others⟩ := List.forall_mem_cons.1 h
    have later := ih others
    simp only [List.length_cons, List.map_cons, List.sum_cons, Nat.succ_mul]
    omega

/-! ## Places of parts -/

/-- The part is at a place, with `rest` behind its head. -/
def Stands (p : Part) (c : Cursor) (rest : List UInt8) : Prop :=
  if p.dynamic then
    ∃ offset more, c.rest = wordBytes offset ++ rest ∧ offset ≤ c.base.length ∧
      c.base.drop offset = p.body ++ more
  else c.rest = p.body ++ rest

/-- The parts are at a place in turn, with `rest` behind their heads. -/
def StandAll : List Part → Cursor → List UInt8 → Prop
  | [], c, rest => c.rest = rest
  | p :: ps, c, rest => ∃ next, Stands p c next ∧ StandAll ps { c with rest := next } rest

theorem stands_dynamic {body : List UInt8} {c : Cursor} {rest : List UInt8} :
    Stands ⟨true, body⟩ c rest ↔ ∃ offset more, c.rest = wordBytes offset ++ rest ∧
      offset ≤ c.base.length ∧ c.base.drop offset = body ++ more := Iff.rfl

theorem stands_static {body : List UInt8} {c : Cursor} {rest : List UInt8} :
    Stands ⟨false, body⟩ c rest ↔ c.rest = body ++ rest := Iff.rfl

theorem Stands.length_le {p : Part} {c : Cursor} {rest : List UInt8} (h : Stands p c rest) :
    rest.length ≤ c.rest.length := by
  unfold Stands at h
  split at h
  · obtain ⟨offset, more, here, -⟩ := h
    simp [here]
  · simp [h]

/-- Heads stand where the tails begin at the distance that they say. -/
theorem standAll_heads {ps : List Part} {c : Cursor} {offset : Nat} {rest more : List UInt8}
    (here : c.rest = heads offset ps ++ rest) (inside : offset ≤ c.base.length)
    (there : c.base.drop offset = tails ps ++ more) : StandAll ps c rest := by
  induction ps generalizing c offset with
  | nil => exact here
  | cons p ps ih =>
    obtain ⟨dynamic, body⟩ := p
    cases dynamic with
    | false =>
      have first : c.rest = body ++ (heads offset ps ++ rest) := by simpa [heads] using here
      exact ⟨heads offset ps ++ rest, stands_static.2 first, ih rfl inside there⟩
    | true =>
      replace there : c.base.drop offset = body ++ (tails ps ++ more) := by
        simpa [tails_cons] using there
      have first : c.rest = wordBytes offset ++ (heads (offset + body.length) ps ++ rest) := by
        simpa [heads] using here
      have next : c.base.drop (offset + body.length) = tails ps ++ more := by
        rw [← List.drop_drop, there, List.drop_left]
      have length := congrArg List.length there
      rw [List.length_drop, List.length_append] at length
      have further : offset + body.length ≤ c.base.length := by omega
      exact ⟨heads (offset + body.length) ps ++ rest,
        stands_dynamic.2 ⟨offset, tails ps ++ more, first, inside, there⟩, ih rfl further next⟩

/-- The parts of a layout stand at its beginning. -/
theorem standAll_layout {ps : List Part} {data more : List UInt8} {depth : Nat}
    (h : data = layout ps ++ more) : StandAll ps ⟨data, data, depth⟩ (tails ps ++ more) := by
  subst h
  have here : layout ps ++ more = heads (headsSize ps) ps ++ (tails ps ++ more) := by simp [layout]
  have inside : headsSize ps ≤ (layout ps ++ more).length := by simp [layout, length_heads]
  have there : (layout ps ++ more).drop (headsSize ps) = tails ps ++ more := by
    rw [here, List.drop_left' (length_heads _ ps)]
  exact standAll_heads here inside there

/-! ## Readers -/

/-- A reader that nests so many others has room for them, in data of which every
distance fits a word of 64 bits. -/
structure Cursor.Fits (c : Cursor) (depth : Nat) : Prop where
  shallow : c.depth + depth ≤ 16
  short : c.base.length < 2 ^ 64
  within : c.rest.length ≤ c.base.length

/-- The reader gives a value wherever something stands, and goes on behind
it. -/
def Reads {α : Type} (read : Cursor → Except DecodeFault (α × Cursor)) (depth : Nat)
    (place : Cursor → List UInt8 → Prop) (a : α) : Prop :=
  ∀ c rest, c.Fits depth → place c rest → read c = .ok (a, { c with rest := rest })

section Cursor

variable {c : Cursor} {depth offset : Nat} {rest : List UInt8}

theorem Cursor.Fits.mono {least : Nat} (h : c.Fits depth) (less : least ≤ depth) : c.Fits least :=
  ⟨Nat.le_trans (by omega) h.shallow, h.short, h.within⟩

/-- Further on in the data there is as much room. -/
theorem Cursor.Fits.next (h : c.Fits depth) (less : rest.length ≤ c.rest.length) :
    Cursor.Fits { c with rest := rest } depth :=
  ⟨h.shallow, h.short, Nat.le_trans less h.within⟩

/-- A nested reader has room for one less. -/
theorem Cursor.Fits.nested {data : List UInt8} (h : c.Fits (depth + 1))
    (less : data.length ≤ c.base.length) : Cursor.Fits ⟨data, data, c.depth + 1⟩ depth :=
  ⟨by have := h.shallow; show c.depth + 1 + depth ≤ 16; omega, Nat.lt_of_le_of_lt less h.short,
    Nat.le_refl _⟩

theorem Cursor.word_eq {bs : List UInt8} (whole : bs.length = 32) (here : c.rest = bs ++ rest) :
    c.word = .ok (Word.ofBytes bs, { c with rest := rest }) := by
  have front : c.rest.take 32 = bs := by rw [here, List.take_left' whole]
  have behind : c.rest.drop 32 = rest := by rw [here, List.drop_left' whole]
  simp only [Cursor.word, front, behind, whole, Nat.lt_irrefl, if_false]

theorem Cursor.size_eq {n : Nat} (here : c.rest = wordBytes n ++ rest) (small : n < 2 ^ 64) :
    c.size = .ok (n, { c with rest := rest }) := by
  have word : (Word.ofBytes (wordBytes n)).toNat = n := by
    rw [wordBytes, Word.ofBytes_bytes, BitVec.toNat_ofNat]
    exact Nat.mod_eq_of_lt (by omega)
  simp only [Cursor.size, Cursor.word_eq (length_wordBytes n) here, word, Nat.mod_eq_of_lt small]

theorem Cursor.nested_eq {data : List UInt8} (h : c.Fits (depth + 1)) :
    c.nested data = .ok ⟨data, data, c.depth + 1⟩ := by
  have := h.shallow
  rw [Cursor.nested, if_neg (by omega)]

/-- The nested reader at a distance within the data. -/
theorem Cursor.child_eq (h : c.Fits (depth + 1)) (inside : offset ≤ c.base.length) :
    c.child offset = .ok ⟨c.base.drop offset, c.base.drop offset, c.depth + 1⟩ := by
  have := h.shallow
  rw [Cursor.child, if_neg (by omega)]
  split
  · next nothing => rw [if_neg (by omega), nested_eq h, nothing]
  · exact nested_eq h

theorem Cursor.indirect_eq (h : c.Fits (depth + 1)) (here : c.rest = wordBytes offset ++ rest)
    (inside : offset ≤ c.base.length) : c.indirect =
      .ok (⟨c.base.drop offset, c.base.drop offset, c.depth + 1⟩, { c with rest := rest }) := by
  have after : Cursor.Fits { c with rest := rest } (depth + 1) := h.next (by simp [here])
  simp only [Cursor.indirect, Cursor.size_eq here (Nat.lt_of_le_of_lt inside h.short),
    Cursor.child_eq after inside]

/-- Where a length stands with something behind it, the nested reader at the
distance reads the length and goes on to what is behind it. -/
theorem Stands.counts {n : Nat} {body : List UInt8} (fits : c.Fits (depth + 1))
    (stands : Stands ⟨true, wordBytes n ++ body⟩ c rest) (small : n ≤ body.length) :
    ∃ inner more, c.indirect = .ok (inner, { c with rest := rest }) ∧
      inner.size = .ok (n, { inner with rest := body ++ more }) ∧
      Cursor.Fits { inner with rest := body ++ more } depth := by
  obtain ⟨offset, more, here, inside, there⟩ := stands_dynamic.1 stands
  have length := congrArg List.length there
  simp only [List.length_drop, List.length_append, length_wordBytes] at length
  have := fits.short
  have fits' : Cursor.Fits ⟨c.base.drop offset, c.base.drop offset, c.depth + 1⟩ depth :=
    fits.nested (by simp)
  refine ⟨_, more, Cursor.indirect_eq fits here inside, Cursor.size_eq ?_ (by omega),
    fits'.next ?_⟩
  · simpa using there
  · simp only [List.length_append, List.length_drop]
    omega

end Cursor

variable {depth least : Nat} {ps : List Part} {vs : List AbiValue}

/-- Bytes are read off their length. -/
theorem reads_packed (bs : List UInt8) :
    Reads packed 1 (Stands ⟨true, wordBytes bs.length ++ padded bs⟩) bs := by
  intro c rest fits stands
  obtain ⟨inner, more, indirect, size, -⟩ := stands.counts fits (by simp [padded])
  have front : (padded bs ++ more).take bs.length = bs := by
    rw [padded, List.append_assoc, List.take_left]
  simp only [packed, indirect, size, Cursor.bytes, front, Nat.lt_irrefl, if_false]

/-- Values that are read in turn are read from parts in turn. -/
theorem reads_repeated {read : Cursor → Except DecodeFault (AbiValue × Cursor)}
    {part : AbiValue → Part} (one : ∀ v ∈ vs, Reads read depth (Stands (part v)) v) :
    Reads (repeated read vs.length) depth (StandAll (vs.map part)) vs := by
  intro c rest fits stand
  induction vs generalizing c with
  | nil =>
    subst stand
    rfl
  | cons v vs ih =>
    obtain ⟨first, others⟩ := List.forall_mem_cons.1 one
    obtain ⟨next, here, later⟩ := stand
    simp only [List.length_cons, repeated, first c next fits here,
      ih others _ (fits.next here.length_le) later]

/-- A sequence is read off its layout, in place or at a distance. -/
theorem reads_sequence {read : Cursor → Except DecodeFault (List AbiValue × Cursor)}
    (all : Reads read depth (StandAll ps) vs) : Reads (sequence (ps.any (·.dynamic)) read)
      (depth + 1) (Stands ⟨ps.any (·.dynamic), layout ps⟩) vs := by
  intro c rest fits stands
  cases kind : ps.any (·.dynamic) with
  | false =>
    rw [kind] at stands
    have inner := all _ _ (fits.nested fits.within)
      (standAll_layout (stands_static.1 stands))
    rw [tails_of_static kind, List.nil_append] at inner
    simp only [sequence, Cursor.nested_eq fits, inner, Bool.false_eq_true, if_false]
  | true =>
    rw [kind] at stands
    obtain ⟨offset, more, here, inside, there⟩ := stands_dynamic.1 stands
    have shorter : (c.base.drop offset).length ≤ c.base.length := by simp
    have inner := all _ _ (fits.nested shorter) (standAll_layout there)
    simp only [sequence, Cursor.indirect_eq fits here inside, inner, if_true]

/-- An array is read off its length and its layout. -/
theorem reads_counted {read : Cursor → Except DecodeFault (AbiValue × Cursor)}
    {part : AbiValue → Part} (one : ∀ v ∈ vs, Reads read depth (Stands (part v)) v)
    (enough : ∀ v ∈ vs, 32 * least ≤ (part v).body.length) (positive : 1 ≤ least) :
    Reads (counted .ample least read) (depth + 2)
      (Stands ⟨true, wordBytes vs.length ++ layout (vs.map part)⟩) vs := by
  intro c rest fits stands
  have words : 32 * (vs.length * least) ≤ (layout (vs.map part)).length := by
    have all : ∀ p ∈ vs.map part, 32 * least ≤ p.body.length := by simpa using enough
    simpa using least_layout all
  have fewer : vs.length ≤ vs.length * least := Nat.le_mul_of_pos_right _ positive
  obtain ⟨inner, more, indirect, size, fits'⟩ := stands.counts fits (by omega)
  simp only [counted, indirect, size]
  cases vs with
  | nil => rfl
  | cons v vs =>
    set items := layout ((v :: vs).map part) ++ more with hitems
    have many : ¬ Cursor.wordsLeft ⟨items, items, inner.depth + 1⟩ < (v :: vs).length * least := by
      simp only [Cursor.wordsLeft, items, List.length_append]
      omega
    have values := reads_repeated one _ _ (fits'.nested fits'.within) (standAll_layout hitems)
    simp only [List.length_cons, Cursor.nested_eq fits'] at many values ⊢
    simp only [if_neg many, Room.ample, values]

end GuardedCalls.Abi
