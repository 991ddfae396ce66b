/-
GuardedCalls.Proofs.UniformityTheorems — from how many words each number of an
interval is drawn.

A number up to a span is the low bits of a 256-bit word, as many as the span
has, unless they exceed it; then the next word is taken. Whether that favours a
number is a question about words, so words are counted.

* `Settles` — a word settles a draw: where it is the next one, nothing else is
  read, and what is drawn does not depend on anything else. A loop is settled by
  the words that it accepts and by no others (`settles_untilAccepted_iff`): every
  word is the next one of some stream (`word256_streamOf`), and after a refusal
  more than one word is read.
* `PassesOver` — words that settle nothing are passed over, as many in a row as the
  stream has patience for. Streams have any patience, so a loop that stops anywhere
  stops with the first word that settles the draw.
* `ncard_lowBits` — how many words have their low bits in a set of numbers.
* `Scalar.settles_between_iff` — a scalar of an interval is settled by the words
  that settle its distance from the lower end.
* `draws_uniform` — every number and every scalar has the same number of words,
  and more than half of all words settle a draw.
-/
import Mathlib.Algebra.BigOperators.Group.Finset.Basic
import Mathlib.Data.Finset.Prod
import Mathlib.Data.Set.Card
import Mathlib.Tactic.Ring
import GuardedCalls.Proofs.DrawTheorems

namespace GuardedCalls

namespace Random

/-! ## The words of a stream -/

/-- Two words of a stream, the low one first. -/
theorem exists_word64 (s : Stream) : ∃ a s', word64 s = (a, s') ∧
    a.toNat = (s.word s.position).toNat + 2 ^ 32 * (s.word (s.position + 1)).toNat ∧
    s'.position = s.position + 2 ∧ s'.blocks = s.blocks := by
  have low := (s.word s.position).toNat_lt
  have high := (s.word (s.position + 1)).toNat_lt
  have second : s.next.2.next.1 = s.word (s.position + 1) := by
    rw [Stream.next_fst, Stream.position_next, Stream.word, Stream.blocks_next]
    rfl
  refine ⟨_, _, rfl, ?_, ?_, ?_⟩
  · show (s.next.1.toUInt64 ||| (s.next.2.next.1.toUInt64 <<< 32)).toNat = _
    rw [Stream.next_fst, second, UInt64.toNat_or, UInt64.toNat_shiftLeft,
      UInt32.toNat_toUInt64, UInt32.toNat_toUInt64, show (32 : UInt64).toNat % 64 = 32 from rfl,
      Nat.mod_eq_of_lt (by rw [Nat.shiftLeft_eq]; omega), Nat.or_comm,
      ← Nat.shiftLeft_add_eq_or_of_lt low, Nat.shiftLeft_eq]
    omega
  · show s.next.2.next.2.position = _
    rw [Stream.position_next, Stream.position_next]
  · show s.next.2.next.2.blocks = _
    rw [Stream.blocks_next, Stream.blocks_next]

/-- Eight words of a stream, the lowest first. -/
theorem exists_word256 (s : Stream) : ∃ w s', word256 s = (w, s') ∧
    w.toNat = ∑ i ∈ Finset.range 8, 2 ^ (32 * i) * (s.word (s.position + i)).toNat ∧
    s'.position = s.position + 8 := by
  obtain ⟨a, s₁, first, ha, position₁, blocks₁⟩ := exists_word64 s
  obtain ⟨b, s₂, second, hb, position₂, blocks₂⟩ := exists_word64 s₁
  obtain ⟨c, s₃, third, hc, position₃, blocks₃⟩ := exists_word64 s₂
  obtain ⟨d, s₄, fourth, hd, position₄, -⟩ := exists_word64 s₃
  have same : ∀ t : Stream, t.blocks = s.blocks → t.word = s.word := by
    intro t blocks
    funext i
    rw [Stream.word, Stream.word, blocks]
  have run : word256 s = (BitVec.ofNat 256
      (a.toNat + 2 ^ 64 * (b.toNat + 2 ^ 64 * (c.toNat + 2 ^ 64 * d.toNat))), s₄) := by
    simp only [word256, bind_apply, first, second, third, fourth]
    rfl
  have small : a.toNat + 2 ^ 64 * (b.toNat + 2 ^ 64 * (c.toNat + 2 ^ 64 * d.toNat)) < 2 ^ 256 := by
    have := a.toNat_lt
    have := b.toNat_lt
    have := c.toNat_lt
    have := d.toNat_lt
    omega
  refine ⟨_, _, run, ?_, by omega⟩
  rw [same s₁ blocks₁, position₁] at hb
  rw [same s₂ (blocks₂.trans blocks₁), position₂, position₁] at hc
  rw [same s₃ (blocks₃.trans (blocks₂.trans blocks₁)), position₃, position₂, position₁] at hd
  rw [BitVec.toNat_ofNat, Nat.mod_eq_of_lt small, ha, hb, hc, hd]
  simp only [Finset.sum_range_succ, Finset.sum_range_zero, Nat.add_assoc, Nat.reduceAdd,
    Nat.add_zero]
  ring

/-- The digits of a number to the base 2^32, put together again. -/
theorem sum_digits (m n : Nat) :
    ∑ i ∈ Finset.range n, 2 ^ (32 * i) * (m / 2 ^ (32 * i) % 2 ^ 32) = m % 2 ^ (32 * n) := by
  induction n with
  | zero => simp [Nat.mod_one]
  | succ n ih =>
    rw [Finset.sum_range_succ, ih, Nat.pow_mul, Nat.pow_mul]
    exact Nat.mod_pow_succ.symm

/-- A stream that begins with the eight parts of a word. -/
def streamOf (w : Word) : Stream :=
  .ofBlocks 0 fun _ => .ofFn fun i => .ofNat (w.toNat / 2 ^ (32 * i.val))

theorem toNat_word_streamOf (w : Word) {i : Nat} (inside : i < 8) :
    ((streamOf w).word i).toNat = w.toNat / 2 ^ (32 * i) % 2 ^ 32 := by
  simp only [streamOf, Stream.ofBlocks, Stream.word, Vector.getElem_ofFn, UInt32.toNat_ofNat',
    Nat.mod_eq_of_lt (show i < 16 by omega)]

/-- Every word is the next one of a stream. -/
theorem word256_streamOf (w : Word) : (word256 (streamOf w)).1 = w := by
  obtain ⟨v, s', run, value, -⟩ := exists_word256 (streamOf w)
  apply BitVec.eq_of_toNat_eq
  calc (word256 (streamOf w)).1.toNat
    _ = ∑ i ∈ Finset.range 8, 2 ^ (32 * i) * ((streamOf w).word (0 + i)).toNat := by
      rw [run]
      exact value
    _ = ∑ i ∈ Finset.range 8, 2 ^ (32 * i) * (w.toNat / 2 ^ (32 * i) % 2 ^ 32) := by
      refine Finset.sum_congr rfl fun i hi => ?_
      rw [Nat.zero_add, toNat_word_streamOf w (Finset.mem_range.1 hi)]
    _ = w.toNat := by rw [sum_digits, Nat.mod_eq_of_lt w.isLt]

/-! ## Words that settle a draw -/

section Settling

variable {α β γ : Type} {accept? : α → Option β} {lastResort : α → β}

/-- A word settles a draw: wherever it is the next one, it is all that is read,
and this is drawn. -/
def Settles (draw : Draw β) (w : Word) (b : β) : Prop :=
  ∀ s, (word256 s).1 = w → draw s = (b, (word256 s).2)

/-- Words that settle nothing are passed over, as many in a row as the stream
has patience for: the first word that settles the draw decides. -/
def PassesOver (draw : Draw β) : Prop :=
  ∀ s, ∀ count ≤ s.patience, ∀ b, (∀ w ∈ (times word256 count s).1, ∀ c, ¬ Settles draw w c) →
    Settles draw (word256 (times word256 count s).2).1 b →
    draw s = (b, (word256 (times word256 count s).2).2)

/-- A loop that has refused some draws gives what is accepted next. -/
theorem acceptedWithin_of_refused {draw : Draw α} {b : β} :
    ∀ {count fuel : Nat} {s : Stream}, count < fuel →
      (∀ a ∈ (times draw count s).1, accept? a = none) →
      accept? (draw (times draw count s).2).1 = some b →
      acceptedWithin draw accept? lastResort fuel s = (b, (draw (times draw count s).2).2) := by
  intro count
  induction count with
  | zero =>
    intro fuel s enough _ accepted
    obtain ⟨fuel, rfl⟩ := Nat.exists_eq_add_of_le' enough
    exact acceptedWithin_of_some accepted
  | succ count ih =>
    intro fuel s enough refused accepted
    obtain ⟨fuel, rfl⟩ := Nat.exists_eq_add_of_le' (Nat.le_trans (Nat.le_add_left 1 _) enough)
    have first : times draw (count + 1) s =
        ((draw s).1 :: (times draw count (draw s).2).1, (times draw count (draw s).2).2) := rfl
    rw [first] at refused accepted ⊢
    obtain ⟨here, later⟩ := List.forall_mem_cons.1 refused
    rw [acceptedWithin_of_none here]
    exact ih (Nat.lt_of_succ_lt_succ enough) later accepted

/-- A loop reads at least as much as one draw. -/
theorem position_acceptedWithin {draw : Draw α} {size : Nat}
    (reads : ∀ s, (draw s).2.position = s.position + size) :
    ∀ fuel s,
      s.position + size ≤ (acceptedWithin draw accept? lastResort fuel s).2.position := by
  intro fuel
  induction fuel with
  | zero =>
    intro s
    rw [acceptedWithin_zero, reads]
  | succ fuel ih =>
    intro s
    cases accepted : accept? (draw s).1 with
    | some b => rw [acceptedWithin_of_some accepted, reads]
    | none =>
      rw [acceptedWithin_of_none accepted]
      have more := ih (draw s).2
      rw [reads] at more
      omega

end Settling

section Loops

variable {β γ : Type} {accept? : Word → Option β} {lastResort : Word → β}

theorem position_word256 (s : Stream) : (word256 s).2.position = s.position + 8 := by
  obtain ⟨w, s', run, -, position⟩ := exists_word256 s
  rw [run, position]

/-- A loop is settled by the words that it accepts. -/
theorem settles_untilAccepted_iff (f : β → γ) {w : Word} {c : γ} :
    Settles (f <$> untilAccepted word256 accept? lastResort) w c ↔
      ∃ b, accept? w = some b ∧ f b = c := by
  constructor
  · intro settles
    obtain ⟨s, rfl⟩ : ∃ s, (word256 s).1 = w := ⟨streamOf w, word256_streamOf w⟩
    have run := settles s rfl
    rw [map_apply, untilAccepted_apply] at run
    cases accepted : accept? (word256 s).1 with
    | some b =>
      rw [acceptedWithin_of_some accepted] at run
      exact ⟨b, rfl, congrArg Prod.fst run⟩
    | none =>
      -- After a refusal the loop reads on, and what settles a draw does not.
      rw [acceptedWithin_of_none accepted] at run
      have more : _ ≤ (acceptedWithin word256 accept? lastResort s.patience
          (word256 s).2).2.position :=
        position_acceptedWithin position_word256 s.patience (word256 s).2
      rw [(Prod.mk.inj run).2] at more
      omega
  · rintro ⟨b, accepted, rfl⟩ s rfl
    rw [map_apply, untilAccepted_apply, acceptedWithin_of_some accepted]

/-- A loop passes over the words that it refuses. -/
theorem passesOver_untilAccepted (f : β → γ) :
    PassesOver (f <$> untilAccepted word256 accept? lastResort) := by
  intro s count few c refused settled
  obtain ⟨b, accepted, rfl⟩ := (settles_untilAccepted_iff f).1 settled
  have refusedAll : ∀ w ∈ (times word256 count s).1, accept? w = none := by
    intro w hw
    cases accepts : accept? w with
    | none => rfl
    | some b => exact absurd ((settles_untilAccepted_iff f).2 ⟨b, accepts, rfl⟩) (refused w hw _)
  rw [map_apply, untilAccepted_apply,
    acceptedWithin_of_refused (Nat.lt_succ_of_le few) refusedAll accepted]

end Loops

/-! ## The low bits of words -/

theorem lt_two_pow_bitLength (n : Nat) : n < 2 ^ bitLength n := by
  unfold bitLength
  split
  · next zero => simp [zero]
  · exact Nat.lt_log2_self

theorem two_pow_bitLength_lt (n : Nat) : 2 ^ bitLength n < 2 * (n + 1) := by
  unfold bitLength
  split
  · omega
  · next nonzero =>
    have := Nat.log2_self_le nonzero
    rw [Nat.pow_succ]
    omega

/-- A number has as many binary digits as it needs. -/
theorem bitLength_le_iff {n k : Nat} : bitLength n ≤ k ↔ n < 2 ^ k := by
  constructor
  · intro short
    exact Nat.lt_of_lt_of_le (lt_two_pow_bitLength n) (Nat.pow_le_pow_right (by decide) short)
  · intro small
    unfold bitLength
    split
    · exact Nat.zero_le k
    · next nonzero => exact (Nat.log2_lt nonzero).2 small

/-- The word whose low bits are set, as many as said. -/
def lowMask (bits : Nat) : Word := BitVec.ofNat 256 (2 ^ bits - 1)

theorem toNat_and_lowMask {bits : Nat} (fits : bits ≤ 256) (w : Word) :
    (w &&& lowMask bits).toNat = w.toNat % 2 ^ bits := by
  have := Nat.pow_le_pow_right (show 0 < 2 by decide) fits
  have := Nat.two_pow_pos bits
  rw [BitVec.toNat_and, lowMask, BitVec.toNat_ofNat, Nat.mod_eq_of_lt (by omega),
    Nat.and_two_pow_sub_one_eq_mod]

theorem upTo?_eq_some_iff {span n : Nat} {w : Word} :
    upTo? span w = some n ↔ w.toNat % 2 ^ bitLength span = n ∧ n ≤ span := by
  simp only [upTo?]
  split
  · next small =>
    rw [Option.some.injEq]
    exact ⟨fun same => ⟨same, same ▸ small⟩, And.left⟩
  · next large =>
    constructor
    · intro none
      cases none
    · rintro ⟨rfl, small⟩
      exact absurd small large

/-- The word with some low bits and a number above them. -/
def joined (bits : Nat) (parts : Nat × Nat) : Word :=
  BitVec.ofNat 256 (parts.1 + 2 ^ bits * parts.2)

section Parts

variable {bits : Nat} {parts : Nat × Nat}

theorem toNat_joined (fits : bits ≤ 256) (low : parts.1 < 2 ^ bits)
    (high : parts.2 < 2 ^ (256 - bits)) :
    (joined bits parts).toNat = parts.1 + 2 ^ bits * parts.2 := by
  have whole : 2 ^ bits * (parts.2 + 1) ≤ 2 ^ 256 := by
    calc 2 ^ bits * (parts.2 + 1)
      _ ≤ 2 ^ bits * 2 ^ (256 - bits) := Nat.mul_le_mul_left _ high
      _ = 2 ^ 256 := by rw [← Nat.pow_add, Nat.add_sub_cancel' fits]
  rw [Nat.mul_succ] at whole
  rw [joined, BitVec.toNat_ofNat, Nat.mod_eq_of_lt (by omega)]

/-- The parts of a joined word. -/
theorem parts_joined (fits : bits ≤ 256) (low : parts.1 < 2 ^ bits)
    (high : parts.2 < 2 ^ (256 - bits)) :
    ((joined bits parts).toNat % 2 ^ bits, (joined bits parts).toNat / 2 ^ bits) = parts := by
  refine Prod.ext ?_ ?_
  · show (joined bits parts).toNat % 2 ^ bits = parts.1
    rw [toNat_joined fits low high, Nat.add_mul_mod_self_left, Nat.mod_eq_of_lt low]
  · show (joined bits parts).toNat / 2 ^ bits = parts.2
    rw [toNat_joined fits low high, Nat.add_mul_div_left _ _ (Nat.two_pow_pos bits),
      Nat.div_eq_of_lt low, Nat.zero_add]

/-- A word is joined from its parts. -/
theorem joined_parts (bits : Nat) (w : Word) :
    joined bits (w.toNat % 2 ^ bits, w.toNat / 2 ^ bits) = w := by
  show BitVec.ofNat 256 (w.toNat % 2 ^ bits + 2 ^ bits * (w.toNat / 2 ^ bits)) = w
  rw [Nat.mod_add_div, BitVec.ofNat_toNat, BitVec.setWidth_eq]

/-- How many words have their low bits in a set of numbers: the bits above them
are free. -/
theorem ncard_lowBits (fits : bits ≤ 256) {A : Finset Nat} (small : ∀ n ∈ A, n < 2 ^ bits) :
    {w : Word | w.toNat % 2 ^ bits ∈ A}.ncard = A.card * 2 ^ (256 - bits) := by
  have parts_mem : ∀ p ∈ A ×ˢ Finset.range (2 ^ (256 - bits)),
      ((joined bits p).toNat % 2 ^ bits, (joined bits p).toNat / 2 ^ bits) = p := by
    intro p hp
    obtain ⟨low, high⟩ := Finset.mem_product.1 hp
    exact parts_joined fits (small p.1 low) (Finset.mem_range.1 high)
  have injective :
      Set.InjOn (joined bits) (A ×ˢ Finset.range (2 ^ (256 - bits)) : Finset (Nat × Nat)) := by
    intro p hp q hq same
    rw [← parts_mem p hp, same, parts_mem q hq]
  have image : {w : Word | w.toNat % 2 ^ bits ∈ A} =
      joined bits '' (A ×ˢ Finset.range (2 ^ (256 - bits)) : Finset (Nat × Nat)) := by
    ext w
    constructor
    · intro (low : w.toNat % 2 ^ bits ∈ A)
      have high : w.toNat / 2 ^ bits < 2 ^ (256 - bits) := by
        rw [Nat.div_lt_iff_lt_mul (Nat.two_pow_pos bits), ← Nat.pow_add, Nat.sub_add_cancel fits]
        exact w.isLt
      exact ⟨_, Finset.mem_product.2 ⟨low, Finset.mem_range.2 high⟩, joined_parts bits w⟩
    · rintro ⟨p, hp, rfl⟩
      have low : (joined bits p).toNat % 2 ^ bits = p.1 := congrArg Prod.fst (parts_mem p hp)
      show (joined bits p).toNat % 2 ^ bits ∈ A
      rw [low]
      exact (Finset.mem_product.1 hp).1
  rw [image, injective.ncard_image, Set.ncard_coe_finset, Finset.card_product, Finset.card_range]

end Parts

/-! ## Numbers up to a span -/

section Spans

variable {span n : Nat} {w : Word}

theorem settles_map_upTo_iff {β : Type} (f : Nat → β) {b : β} :
    Settles (f <$> upTo span) w b ↔ ∃ n, upTo? span w = some n ∧ f n = b := by
  rw [upTo]
  exact settles_untilAccepted_iff f

theorem passesOver_map_upTo {β : Type} (f : Nat → β) : PassesOver (f <$> upTo span) := by
  rw [upTo]
  exact passesOver_untilAccepted f

theorem passesOver_upTo : PassesOver (upTo span) := by
  rw [← id_map (upTo span)]
  exact passesOver_map_upTo id

/-- A number up to a span is settled by the words whose masked value it is. -/
theorem settles_upTo_iff (fits : span < 2 ^ 256) :
    Settles (upTo span) w n ↔ (w &&& lowMask (bitLength span)).toNat = n ∧ n ≤ span := by
  rw [toNat_and_lowMask (bitLength_le_iff.2 fits), ← upTo?_eq_some_iff, ← id_map (upTo span),
    settles_map_upTo_iff]
  simp only [id, exists_eq_right]

/-- Every number up to the span comes from equally many words. -/
theorem ncard_settles_upTo (fits : span < 2 ^ 256) (small : n ≤ span) :
    {w | Settles (upTo span) w n}.ncard = 2 ^ (256 - bitLength span) := by
  have words : {w | Settles (upTo span) w n} =
      {w : Word | w.toNat % 2 ^ bitLength span ∈ ({n} : Finset Nat)} := by
    ext w
    show Settles (upTo span) w n ↔ w.toNat % 2 ^ bitLength span ∈ ({n} : Finset Nat)
    rw [settles_upTo_iff fits, toNat_and_lowMask (bitLength_le_iff.2 fits), Finset.mem_singleton]
    exact and_iff_left small
  have below : ∀ m ∈ ({n} : Finset Nat), m < 2 ^ bitLength span := by
    intro m hm
    rw [Finset.mem_singleton.1 hm]
    exact Nat.lt_of_le_of_lt small (lt_two_pow_bitLength span)
  rw [words, ncard_lowBits (bitLength_le_iff.2 fits) below, Finset.card_singleton, Nat.one_mul]

/-- More than half of all words are accepted. -/
theorem half_lt_ncard_settles_upTo (fits : span < 2 ^ 256) :
    2 ^ 256 < 2 * {w | ∃ n, Settles (upTo span) w n}.ncard := by
  have short := bitLength_le_iff.2 fits
  have words : {w | ∃ n, Settles (upTo span) w n} =
      {w : Word | w.toNat % 2 ^ bitLength span ∈ Finset.range (span + 1)} := by
    ext w
    show (∃ n, Settles (upTo span) w n) ↔ w.toNat % 2 ^ bitLength span ∈ Finset.range (span + 1)
    simp only [settles_upTo_iff fits, toNat_and_lowMask short, Finset.mem_range, Nat.lt_succ_iff]
    exact ⟨fun ⟨_, same, small⟩ => same ▸ small, fun small => ⟨_, rfl, small⟩⟩
  have below : ∀ m ∈ Finset.range (span + 1), m < 2 ^ bitLength span := by
    intro m hm
    have := lt_two_pow_bitLength span
    have := Finset.mem_range.1 hm
    omega
  rw [words, ncard_lowBits short below, Finset.card_range]
  calc 2 ^ 256
    _ = 2 ^ bitLength span * 2 ^ (256 - bitLength span) := by
      rw [← Nat.pow_add, Nat.add_sub_cancel' short]
    _ < 2 * (span + 1) * 2 ^ (256 - bitLength span) :=
      Nat.mul_lt_mul_of_pos_right (two_pow_bitLength_lt span) (Nat.two_pow_pos _)
    _ = 2 * ((span + 1) * 2 ^ (256 - bitLength span)) := Nat.mul_assoc _ _ _

end Spans

end Random

/-! ## Scalars of an interval -/

namespace Scalar

variable {low high v : Scalar} {span : Nat}

/-- A scalar is settled by the words that settle its distance. -/
theorem settles_between_iff (apart : high.val = low.val + span) (fits : span < 2 ^ 256)
    {w : Word} : Random.Settles (between low high) w v ↔
      ∃ n, Random.Settles (Random.upTo span) w n ∧ v.val = low.val + n := by
  rw [between_eq apart fits]
  refine (Random.settles_map_upTo_iff _).trans (exists_congr fun n => ?_)
  rw [Random.settles_upTo_iff fits, Random.toNat_and_lowMask (Random.bitLength_le_iff.2 fits),
    ← Random.upTo?_eq_some_iff]
  refine and_congr_right fun accepted => ?_
  rw [eq_iff, val_getD_add? apart fits (Random.upTo?_eq_some_iff.1 accepted).2, eq_comm]

/-- Every scalar of an interval comes from equally many words: those of its
distance from the lower end. -/
theorem ncard_settles_between (apart : high.val = low.val + span) (fits : span < 2 ^ 256)
    (from_low : low ≤ v) (to_high : v ≤ high) :
    {w | Random.Settles (between low high) w v}.ncard = 2 ^ (256 - Random.bitLength span) := by
  rw [le_iff] at from_low to_high
  have words : {w | Random.Settles (between low high) w v} =
      {w | Random.Settles (Random.upTo span) w (v.val - low.val).toNat} := by
    ext w
    refine (settles_between_iff apart fits).trans ⟨?_, fun settled => ⟨_, settled, by omega⟩⟩
    rintro ⟨n, settled, above⟩
    rwa [show (v.val - low.val).toNat = n by omega]
  rw [words]
  exact Random.ncard_settles_upTo fits (by omega)

end Scalar

namespace Random

/-- **Draws are uniform and in range.** Let a span fit 256 bits. A word settles
the draw of a number up to it exactly if its low bits, as many as the span has,
do not exceed it; they are the number then. Every number has the same number
of words, more than half of all words settle the draw, and the others are passed
over. A scalar of an interval of this length always lies in it, and every scalar
of the interval has the same number of words, too. -/
theorem draws_uniform {span : Nat} (fits : span < 2 ^ 256) :
    (∀ w n, Settles (upTo span) w n ↔
      (w &&& lowMask (bitLength span)).toNat = n ∧ n ≤ span) ∧
    (∀ n ≤ span, {w | Settles (upTo span) w n}.ncard = 2 ^ (256 - bitLength span)) ∧
    2 ^ 256 < 2 * {w | ∃ n, Settles (upTo span) w n}.ncard ∧ PassesOver (upTo span) ∧
    ∀ low high : Scalar, high.val = low.val + span →
      (∀ s, low ≤ (Scalar.between low high s).1 ∧ (Scalar.between low high s).1 ≤ high) ∧
      (∀ v, low ≤ v → v ≤ high →
        {w | Settles (Scalar.between low high) w v}.ncard = 2 ^ (256 - bitLength span)) ∧
      PassesOver (Scalar.between low high) := by
  refine ⟨fun w n => settles_upTo_iff fits, fun n small => ncard_settles_upTo fits small,
    half_lt_ncard_settles_upTo fits, passesOver_upTo, fun low high apart => ⟨?_, ?_, ?_⟩⟩
  · have ordered : low ≤ high := by
      rw [Scalar.le_iff]
      omega
    exact Scalar.between_mem ordered
  · intro v from_low to_high
    exact Scalar.ncard_settles_between apart fits from_low to_high
  · rw [Scalar.between_eq apart fits]
    exact passesOver_map_upTo _

/-- Between the least and the greatest signed number of 256 bits, each scalar
comes from one word. -/
theorem draws_uniform_signed :
    2 ^ 256 - 1 < 2 ^ 256 ∧
      (Scalar.maxSigned 256).val = (Scalar.minSigned 256).val + (2 ^ 256 - 1 : Nat) ∧
      {w | Settles (Scalar.between (Scalar.minSigned 256) (Scalar.maxSigned 256)) w
        Scalar.zero}.ncard = 1 := by
  have fits : 2 ^ 256 - 1 < 2 ^ 256 := by decide
  have apart : (Scalar.maxSigned 256).val = (Scalar.minSigned 256).val + (2 ^ 256 - 1 : Nat) := by
    decide
  obtain ⟨-, -, -, -, intervals⟩ := draws_uniform fits
  have words := (intervals _ _ apart).2.1 Scalar.zero (by decide) (by decide)
  have bits : bitLength (2 ^ 256 - 1) = 256 := by decide
  rw [bits] at words
  exact ⟨fits, apart, words⟩

end Random

end GuardedCalls
