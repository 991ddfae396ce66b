/-
GuardedCalls.Proofs.ScalarTheorems — scalars as integers, and how many of
them an interval holds.

Every question about scalars moves to integers: `eq_iff`, `le_iff` and
`lt_iff` do it for comparisons, `succ?_eq_some_iff` and its neighbours for
the partial operations. What the operations cannot reach is said in the same
terms: a scalar has no successor exactly when it is `2^256 − 1`.

A domain is found to be empty by counting excluded values, and the same count
bounds how far a climb goes, so the second half counts. `exists_finset_card`
turns the count of list members in an interval into the size of a set of
integers: a count is at most the length of its interval, and it is the length
exactly when nothing is missing. `countIn_split` and `countIn_succ_lt` follow a
count while its interval shrinks.
-/
import Mathlib.Data.Int.Interval
import GuardedCalls.Scalar

namespace GuardedCalls.Scalar

/-! ## Scalars as integers -/

theorem eq_iff {a b : Scalar} : a = b ↔ a.val = b.val := ⟨fun h => h ▸ rfl, ext⟩

theorem val_lt (a : Scalar) : a.val < 2 ^ 256 := by
  have := a.inRange
  omega

theorem neg_lt_val (a : Scalar) : -(2 ^ 256) < a.val := by
  have := a.inRange
  omega

theorem not_le_iff {a b : Scalar} : ¬ a ≤ b ↔ b < a := by
  simp only [le_iff, lt_iff]
  omega

theorem not_lt_iff {a b : Scalar} : ¬ a < b ↔ b ≤ a := by
  simp only [le_iff, lt_iff]
  omega

instance : @Std.Irrefl Scalar (· < ·) := ⟨fun _ => Int.lt_irrefl _⟩

instance : @Std.Antisymm Scalar (· < ·) := ⟨fun _ _ h h' => absurd h (Int.lt_asymm h')⟩

/-- An integer between two scalars is a scalar. -/
theorem exists_val_eq {a b : Scalar} {n : Int} (low : a.val ≤ n) (high : n ≤ b.val) :
    ∃ x : Scalar, x.val = n := by
  have := a.neg_lt_val
  have := b.val_lt
  exact ⟨⟨n, by omega⟩, rfl⟩

/-! ## Neighbours and distances -/

theorem succ?_eq (a : Scalar) : a.succ? = ofInt? (a.val + 1) := a.add?_eq (by decide)

theorem pred?_eq (a : Scalar) : a.pred? = ofInt? (a.val - 1) := a.sub?_eq (by decide)

theorem succ?_eq_some_iff {a b : Scalar} : a.succ? = some b ↔ b.val = a.val + 1 := by
  rw [succ?_eq, ofInt?_eq_some_iff]

theorem pred?_eq_some_iff {a b : Scalar} : a.pred? = some b ↔ b.val = a.val - 1 := by
  rw [pred?_eq, ofInt?_eq_some_iff]

/-- Only the largest scalar has none after it. -/
theorem succ?_eq_none_iff {a : Scalar} : a.succ? = none ↔ a.val = 2 ^ 256 - 1 := by
  have := a.val_lt
  have := a.neg_lt_val
  rw [succ?_eq, ofInt?_eq_none_iff]
  omega

/-- Only the smallest scalar has none before it. -/
theorem pred?_eq_none_iff {a : Scalar} : a.pred? = none ↔ a.val = -(2 ^ 256 - 1) := by
  have := a.val_lt
  have := a.neg_lt_val
  rw [pred?_eq, ofInt?_eq_none_iff]
  omega

theorem lt_next_iff {a b next : Scalar} (after : next.val = b.val + 1) : a < next ↔ a ≤ b := by
  rw [lt_iff, le_iff, after]
  exact Int.lt_add_one_iff

/-- The distance of two scalars in order, where it fits 256 bits. -/
theorem distance?_eq_some {low high : Scalar} (ordered : low ≤ high)
    (fits : high.val - low.val < 2 ^ 256) :
    distance? low high = some (high.val - low.val).toNat := by
  rw [distance?_eq, if_pos ⟨ordered, fits⟩]

/-! ## Counting -/

/-- How many members of a list lie in an interval of integers. -/
def countIn (l : List Scalar) (low high : Int) : Nat :=
  l.countP fun v => low ≤ v.val ∧ v.val ≤ high

/-- The members of a list without repetitions that lie in an interval are the
members of a set of integers, as many as were counted. -/
theorem exists_finset_card {l : List Scalar} (nodup : l.Nodup) (low high : Int) :
    ∃ s : Finset Int, s.card = countIn l low high ∧
      ∀ n, n ∈ s ↔ (low ≤ n ∧ n ≤ high) ∧ ∃ v ∈ l, v.val = n := by
  have injective : ∀ a ∈ l.filter (fun v => decide (low ≤ v.val ∧ v.val ≤ high)),
      ∀ b ∈ l.filter (fun v => decide (low ≤ v.val ∧ v.val ≤ high)), a.val = b.val → a = b :=
    fun a _ b _ h => ext h
  have nodup' : ((l.filter fun v => decide (low ≤ v.val ∧ v.val ≤ high)).map val).Nodup :=
    List.Nodup.map_on injective (nodup.filter _)
  refine ⟨_, List.toFinset_card_of_nodup nodup' |>.trans ?_, fun n => ?_⟩
  · rw [List.length_map, countIn, List.countP_eq_length_filter]
  · simp only [List.mem_toFinset, List.mem_map, List.mem_filter, decide_eq_true_eq]
    constructor
    · rintro ⟨v, ⟨hv, inside⟩, rfl⟩
      exact ⟨inside, v, hv, rfl⟩
    · rintro ⟨inside, v, hv, rfl⟩
      exact ⟨v, ⟨hv, inside⟩, rfl⟩

/-- An interval has at most as many members of a list as it is long. -/
theorem countIn_le {l : List Scalar} (nodup : l.Nodup) (low high : Int) :
    countIn l low high ≤ (high + 1 - low).toNat := by
  obtain ⟨s, card, mem⟩ := exists_finset_card nodup low high
  have inside : s ⊆ Finset.Icc low high := fun n hn => Finset.mem_Icc.2 ((mem n).1 hn).1
  rw [← card, ← Int.card_Icc]
  exact Finset.card_le_card inside

/-- As many as it is long exactly when no integer of the interval is missing. -/
theorem countIn_eq_iff {l : List Scalar} (nodup : l.Nodup) (low high : Int) :
    countIn l low high = (high + 1 - low).toNat ↔
      ∀ n, low ≤ n → n ≤ high → ∃ v ∈ l, v.val = n := by
  obtain ⟨s, card, mem⟩ := exists_finset_card nodup low high
  have inside : s ⊆ Finset.Icc low high := fun n hn => Finset.mem_Icc.2 ((mem n).1 hn).1
  rw [← card, ← Int.card_Icc]
  constructor
  · intro full n hl hh
    have whole : s = Finset.Icc low high := Finset.eq_of_subset_of_card_le inside full.ge
    have hn : n ∈ s := by rw [whole]; exact Finset.mem_Icc.2 ⟨hl, hh⟩
    exact ((mem n).1 hn).2
  · intro none_missing
    have whole : Finset.Icc low high ⊆ s := by
      intro n hn
      obtain ⟨hl, hh⟩ := Finset.mem_Icc.1 hn
      exact (mem n).2 ⟨⟨hl, hh⟩, none_missing n hl hh⟩
    rw [Finset.Subset.antisymm inside whole]

/-- An interval is counted in two parts. -/
theorem countIn_split (l : List Scalar) {low mid high : Int} (below : low ≤ mid)
    (above : mid ≤ high + 1) :
    countIn l low (mid - 1) + countIn l mid high = countIn l low high := by
  induction l with
  | nil => rfl
  | cons v vs ih =>
    simp only [countIn, List.countP_cons, decide_eq_true_eq] at ih ⊢
    split <;> split <;> split <;> omega

/-- A list member at the lower end counts. -/
theorem countIn_succ_lt {l : List Scalar} {v : Scalar} (hv : v ∈ l) {high : Int}
    (ordered : v.val ≤ high) : countIn l (v.val + 1) high < countIn l v.val high := by
  have split := countIn_split l (show v.val ≤ v.val + 1 by omega)
    (show v.val + 1 ≤ high + 1 by omega)
  have positive : 0 < countIn l v.val (v.val + 1 - 1) :=
    List.countP_pos_iff.2 ⟨v, hv, by simp⟩
  omega

end GuardedCalls.Scalar
