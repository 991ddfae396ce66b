/-
GuardedCalls.Proofs.ClimbTheorems — what a climb finds, and when it stops.

A climb looks for a value that is not excluded: from its start up, and from the
upper end of the interval once on from the lower one. It is computed with a
bound on the number of places, so that it ends by its form. What is said here
does not rest on that bound.

* `Climbs` — a climb until its end, with the number of its places and without
  a bound on it. It has one end (`Climbs.unique`), and a bound that is not below
  the number of its places changes nothing (`Climbs.climbFrom_eq`).
* `FirstFrom` — what is to be found.
* `OnCourse` — the invariant: what has been passed is excluded.
  `OnCourse.step` says what one place keeps. Either all values of the interval
  have been passed, or the climb is on course at the next place and has fewer
  excluded values ahead. `OnCourse.climbs` is the run.
* `climb_nearest` — the nearest value in the order of the climb, after at most
  one place more than there are excluded values in the interval.
-/
import Mathlib.Data.Set.Card
import Mathlib.Order.Bounds.Defs
import GuardedCalls.Domain.Draw
import GuardedCalls.Proofs.NarrowingTheorems

namespace GuardedCalls.Domain

/-! ## Climbs without a bound -/

/-- A climb from a place on until its end: through how many places it goes, and
what it finds. -/
inductive Climbs (d : Domain) (start : Scalar) : Scalar → Bool → Nat → Option Scalar → Prop
  /-- The place is not excluded. -/
  | found {place : Scalar} {wrapped : Bool} (kept : place ∉ d.excluded) :
    Climbs d start place wrapped 1 (some place)
  /-- The place is excluded, and it is the last one. -/
  | ended {place : Scalar} {wrapped : Bool} (here : place ∈ d.excluded)
    (last : d.onward? start place wrapped = none) : Climbs d start place wrapped 1 none
  /-- The place is excluded, and the climb goes on. -/
  | onward {place next : Scalar} {wrapped wrapped' : Bool} {places : Nat} {result : Option Scalar}
    (here : place ∈ d.excluded) (step : d.onward? start place wrapped = some (next, wrapped'))
    (rest : Climbs d start next wrapped' places result) :
    Climbs d start place wrapped (places + 1) result

section Climbing

variable {d : Domain} {start place : Scalar} {wrapped : Bool} {places : Nat}
  {result : Option Scalar}

/-- A climb has one end. -/
theorem Climbs.unique {places' : Nat} {result' : Option Scalar}
    (h : Climbs d start place wrapped places result)
    (h' : Climbs d start place wrapped places' result') : places' = places ∧ result' = result := by
  induction h generalizing places' result' with
  | found kept =>
    cases h' with
    | found _ => exact ⟨rfl, rfl⟩
    | ended here _ => exact absurd here kept
    | onward here _ _ => exact absurd here kept
  | ended here last =>
    cases h' with
    | found kept => exact absurd here kept
    | ended _ _ => exact ⟨rfl, rfl⟩
    | onward _ step _ =>
      rw [last] at step
      cases step
  | onward here step rest ih =>
    cases h' with
    | found kept => exact absurd here kept
    | ended _ last =>
      rw [step] at last
      cases last
    | onward _ step' rest' =>
      rw [step] at step'
      cases step'
      obtain ⟨rfl, rfl⟩ := ih rest'
      exact ⟨rfl, rfl⟩

/-- A bound that is not below the number of places plays no part. -/
theorem Climbs.climbFrom_eq (h : Climbs d start place wrapped places result) {fuel : Nat}
    (enough : places ≤ fuel) : d.climbFrom start fuel place wrapped = result := by
  induction h generalizing fuel with
  | found kept =>
    obtain ⟨fuel, rfl⟩ := Nat.exists_eq_add_of_le' enough
    rw [climbFrom, if_pos kept]
  | ended here last =>
    obtain ⟨fuel, rfl⟩ := Nat.exists_eq_add_of_le' enough
    rw [climbFrom, if_neg (not_not_intro here), last]
  | @onward _ _ _ _ places _ here step rest ih =>
    obtain ⟨fuel, rfl⟩ := Nat.exists_eq_add_of_le' (Nat.le_trans (Nat.le_add_left 1 places) enough)
    rw [climbFrom, if_neg (not_not_intro here), step]
    exact ih (Nat.le_of_succ_le_succ enough)

/-! ## One place -/

/-- Below the upper end a climb goes up by one. -/
theorem onward?_of_lt (start : Scalar) (wrapped : Bool) (h : place < d.high) :
    ∃ next : Scalar, next.val = place.val + 1 ∧ d.onward? start place wrapped =
      if wrapped = true ∧ start ≤ next then none else some (next, wrapped) := by
  have fits : place.val + 1 < 2 ^ 256 := Int.lt_of_le_of_lt h d.high.val_lt
  cases hnext : place.succ? with
  | none =>
    rw [Scalar.succ?_eq_none_iff] at hnext
    omega
  | some next =>
    have after := Scalar.succ?_eq_some_iff.1 hnext
    have inside : next ≤ d.high := by
      rw [Scalar.le_iff, after]
      exact h
    refine ⟨next, after, ?_⟩
    by_cases back : wrapped = true ∧ start ≤ next
    · simp [onward?, hnext, Option.filter, inside, back]
    · rw [if_neg back]
      cases wrapped <;> simp_all [onward?, Option.filter]

/-- From the upper end a climb goes to the lower one. -/
theorem onward?_high : d.onward? start d.high false =
    if start ≤ d.low then none else some (d.low, true) := by
  have outside : d.high.succ?.filter (· ≤ d.high) = none := by
    cases hnext : d.high.succ? with
    | none => rfl
    | some next =>
      have after := Scalar.succ?_eq_some_iff.1 hnext
      have : ¬ next ≤ d.high := by
        rw [Scalar.le_iff]
        omega
      simp [Option.filter, this]
  simp only [onward?, outside]
  by_cases back : start ≤ d.low <;> simp [Option.filter, back]

/-! ## The invariant -/

/-- A climb is at a place, and all that it has passed is excluded. -/
inductive OnCourse (d : Domain) (start : Scalar) : Scalar → Bool → Prop
  /-- It goes up from `start`. -/
  | above {place : Scalar} (up : start ≤ place) (to_high : place ≤ d.high)
    (passed : ∀ w, start ≤ w → w < place → w ∈ d.excluded) : OnCourse d start place false
  /-- It goes up from the lower end, after everything from `start` up. -/
  | below {place : Scalar} (from_low : d.low ≤ place) (to_start : place < start)
    (inside : start ≤ d.high) (passedAbove : ∀ w, start ≤ w → w ≤ d.high → w ∈ d.excluded)
    (passed : ∀ w, d.low ≤ w → w < place → w ∈ d.excluded) : OnCourse d start place true

/-- How many excluded values a climb has ahead, with the one at its place. -/
def ahead (d : Domain) (start place : Scalar) (wrapped : Bool) : Nat :=
  if wrapped then Scalar.countIn d.excluded.dedup place.val (start.val - 1)
  else Scalar.countIn d.excluded.dedup d.low.val (start.val - 1) +
    Scalar.countIn d.excluded.dedup place.val d.high.val

/-- What has been passed when an excluded place is left. -/
theorem passed_through {low : Scalar} (here : place ∈ d.excluded)
    (passed : ∀ w, low ≤ w → w < place → w ∈ d.excluded) :
    ∀ w, low ≤ w → w ≤ place → w ∈ d.excluded := by
  intro w hw hp
  by_cases same : w = place
  · exact same ▸ here
  · refine passed w hw ?_
    rw [Scalar.eq_iff] at same
    rw [Scalar.le_iff] at hp
    rw [Scalar.lt_iff]
    omega

/-- An excluded place is left: all values of the interval have been passed, or
the climb stays on course and has less ahead. -/
theorem OnCourse.step (course : OnCourse d start place wrapped) (here : place ∈ d.excluded) :
    (d.onward? start place wrapped = none ∧ ∀ w, d.low ≤ w → w ≤ d.high → w ∈ d.excluded) ∨
    ∃ next wrapped', d.onward? start place wrapped = some (next, wrapped') ∧
      OnCourse d start next wrapped' ∧
      d.ahead start next wrapped' < d.ahead start place wrapped := by
  have counts : place ∈ d.excluded.dedup := List.mem_dedup.2 here
  cases course with
  | above up to_high passed =>
    have fewer := Scalar.countIn_succ_lt counts to_high
    have passedHere := passed_through here passed
    by_cases top : place = d.high
    · subst top
      rw [onward?_high]
      by_cases back : start ≤ d.low
      · rw [if_pos back]
        exact .inl ⟨rfl, fun w hw hh => passedHere w (Int.le_trans back hw) hh⟩
      · rw [if_neg back]
        refine .inr ⟨_, _, rfl, .below (Int.le_refl _) (Scalar.not_le_iff.1 back) up passedHere
          (fun w hw hn => absurd hn (Scalar.not_lt_iff.2 hw)), ?_⟩
        simp only [ahead, if_true, Bool.false_eq_true, if_false]
        omega
    · have notTop : place < d.high := by
        rw [Scalar.eq_iff] at top
        rw [Scalar.le_iff] at to_high
        rw [Scalar.lt_iff]
        omega
      obtain ⟨next, after, onward⟩ := onward?_of_lt start false notTop
      rw [onward, if_neg (by simp)]
      rw [Scalar.lt_iff] at notTop
      refine .inr ⟨_, _, rfl, .above ?_ ?_ fun w hw hn => ?_, ?_⟩
      · rw [Scalar.le_iff] at up ⊢
        omega
      · rw [Scalar.le_iff]
        omega
      · exact passedHere w hw ((Scalar.lt_next_iff after).1 hn)
      · simp only [ahead, Bool.false_eq_true, if_false, after]
        omega
  | below from_low to_start inside passedAbove passed =>
    have passedHere := passed_through here passed
    rw [Scalar.lt_iff] at to_start
    obtain ⟨next, after, onward⟩ := onward?_of_lt start true (Int.lt_of_lt_of_le to_start inside)
    have passedNext : ∀ w, d.low ≤ w → w < next → w ∈ d.excluded :=
      fun w hw hn => passedHere w hw ((Scalar.lt_next_iff after).1 hn)
    rw [onward]
    by_cases back : start ≤ next
    · rw [if_pos ⟨rfl, back⟩]
      refine .inl ⟨rfl, fun w hw hh => ?_⟩
      by_cases up : start ≤ w
      · exact passedAbove w up hh
      · refine passedNext w hw ?_
        simp only [Scalar.le_iff, Scalar.lt_iff] at back up ⊢
        omega
    · rw [if_neg (fun both => back both.2)]
      have fewer := Scalar.countIn_succ_lt counts (show place.val ≤ start.val - 1 by omega)
      refine .inr ⟨_, _, rfl,
        .below ?_ (Scalar.not_le_iff.1 back) inside passedAbove passedNext, ?_⟩
      · rw [Scalar.le_iff] at from_low ⊢
        omega
      · simp only [ahead, if_true, after]
        exact fewer

/-! ## The run -/

/-- A value is the first one that is not excluded, going up from `start` and on
from the lower end; no value, if all are excluded. -/
inductive FirstFrom (d : Domain) (start : Scalar) : Option Scalar → Prop
  /-- One from `start` up. -/
  | above {v : Scalar} (from_start : start ≤ v) (to_high : v ≤ d.high) (kept : v ∉ d.excluded)
      (passed : ∀ w, start ≤ w → w < v → w ∈ d.excluded) : FirstFrom d start (some v)
  /-- One below `start`, where all above are excluded. -/
  | below {v : Scalar} (from_low : d.low ≤ v) (to_start : v < start) (kept : v ∉ d.excluded)
      (passedAbove : ∀ w, start ≤ w → w ≤ d.high → w ∈ d.excluded)
      (passed : ∀ w, d.low ≤ w → w < v → w ∈ d.excluded) : FirstFrom d start (some v)
  /-- None. -/
  | none (all : ∀ w, d.low ≤ w → w ≤ d.high → w ∈ d.excluded) : FirstFrom d start none

/-- A climb on course that comes to a value has found the first one. -/
theorem OnCourse.firstFrom (course : OnCourse d start place wrapped) (kept : place ∉ d.excluded) :
    FirstFrom d start (some place) := by
  cases course with
  | above up to_high passed => exact .above up to_high kept passed
  | below from_low to_start _ passedAbove passed =>
    exact .below from_low to_start kept passedAbove passed

/-- A climb on course comes to its end, at the first value, after at most one
place more than it has excluded values ahead. -/
theorem OnCourse.climbs (course : OnCourse d start place wrapped) :
    ∃ places result, Climbs d start place wrapped places result ∧
      places ≤ d.ahead start place wrapped + 1 ∧ FirstFrom d start result := by
  -- Each place that the climb leaves takes one excluded value from what is ahead.
  induction count : d.ahead start place wrapped using Nat.strong_induction_on
    generalizing place wrapped with
  | _ more ih =>
    by_cases here : place ∈ d.excluded
    · rcases course.step here with ⟨last, all⟩ | ⟨next, wrapped', step, onCourse, fewer⟩
      · exact ⟨1, none, .ended here last, Nat.le_add_left 1 more, .none all⟩
      · rw [count] at fewer
        obtain ⟨places, result, rest, most, first⟩ := ih _ fewer onCourse rfl
        exact ⟨places + 1, result, .onward here step rest, by omega, first⟩
    · exact ⟨1, some place, .found here, Nat.le_add_left 1 more, course.firstFrom here⟩

/-- The excluded values of the interval. -/
def excludedWithin (d : Domain) : Set Scalar := {v | (d.low ≤ v ∧ v ≤ d.high) ∧ v ∈ d.excluded}

theorem ncard_excludedWithin (d : Domain) :
    d.excludedWithin.ncard = Scalar.countIn d.excluded.dedup d.low.val d.high.val := by
  have members : d.excludedWithin =
      (d.excluded.dedup.filter fun v => d.low.val ≤ v.val ∧ v.val ≤ d.high.val).toFinset := by
    ext v
    simp only [excludedWithin, Set.mem_ofPred_eq, List.coe_toFinset, List.mem_filter,
      List.mem_dedup, decide_eq_true_eq, Scalar.le_iff]
    exact and_comm
  rw [members, Set.ncard_coe_finset,
    List.toFinset_card_of_nodup ((List.nodup_dedup _).filter _), ← List.countP_eq_length_filter]
  rfl

theorem ncard_excludedWithin_le (d : Domain) : d.excludedWithin.ncard ≤ d.blocked := by
  rw [ncard_excludedWithin, blocked_eq]
  exact (List.dedup_sublist _).countP_le

/-- All excluded values of the interval are ahead at first. -/
theorem ahead_start (low : d.low ≤ start) (high : start ≤ d.high) :
    d.ahead start start false = d.excludedWithin.ncard := by
  rw [ncard_excludedWithin]
  exact Scalar.countIn_split _ low
    (Int.le_trans high (Int.le_add_of_nonneg_right (by decide)))

/-- A climb comes to its end, and it is what is computed. -/
theorem exists_climbs (low : d.low ≤ start) (high : start ≤ d.high) :
    ∃ places ≤ d.excludedWithin.ncard + 1, Climbs d start start false places (d.climb start) ∧
      FirstFrom d start (d.climb start) := by
  have course : OnCourse d start start false :=
    .above (Int.le_refl _) high fun w hw hn => absurd hn (Scalar.not_lt_iff.2 hw)
  obtain ⟨places, result, run, most, first⟩ := course.climbs
  rw [ahead_start low high] at most
  obtain rfl : d.climb start = result :=
    run.climbFrom_eq (Nat.le_trans most (Nat.succ_le_succ d.ncard_excludedWithin_le))
  exact ⟨places, most, run, first⟩

/-- A climb ends at the first value that is not excluded. -/
theorem climb_firstFrom (low : d.low ≤ start) (high : start ≤ d.high) :
    FirstFrom d start (d.climb start) := by
  obtain ⟨-, -, -, first⟩ := exists_climbs low high
  exact first

/-! ## The nearest value -/

/-- The values from `start` up that are not excluded. -/
def keptFrom (d : Domain) (start : Scalar) : Set Scalar :=
  {v | (start ≤ v ∧ v ≤ d.high) ∧ v ∉ d.excluded}

/-- The values below `start` that are not excluded. -/
def keptBelow (d : Domain) (start : Scalar) : Set Scalar :=
  {v | (d.low ≤ v ∧ v < start) ∧ v ∉ d.excluded}

/-- What is found lies in the interval. -/
theorem FirstFrom.kept {v : Scalar} (first : FirstFrom d start (some v)) (low : d.low ≤ start)
    (high : start ≤ d.high) : (d.low ≤ v ∧ v ≤ d.high) ∧ v ∉ d.excluded := by
  cases first with
  | above from_start to_high kept passed => exact ⟨⟨Int.le_trans low from_start, to_high⟩, kept⟩
  | below from_low to_start kept passedAbove passed =>
    exact ⟨⟨from_low, Int.le_of_lt (Int.lt_of_lt_of_le to_start high)⟩, kept⟩

/-- Nothing is found exactly where all values of the interval are excluded. -/
theorem FirstFrom.eq_none_iff (first : FirstFrom d start result) (low : d.low ≤ start)
    (high : start ≤ d.high) :
    result = .none ↔ ∀ w, d.low ≤ w → w ≤ d.high → w ∈ d.excluded := by
  cases result with
  | none =>
    cases first with
    | none all => exact ⟨fun _ => all, fun _ => rfl⟩
  | some v =>
    obtain ⟨⟨from_low, to_high⟩, kept⟩ := first.kept low high
    exact ⟨nofun, fun all => absurd (all v from_low to_high) kept⟩

/-- If a value from `start` up is left, the least one is found. -/
theorem FirstFrom.least_above (first : FirstFrom d start result) (low : d.low ≤ start)
    (left : (d.keptFrom start).Nonempty) :
    ∃ v, IsLeast (d.keptFrom start) v ∧ result = some v := by
  obtain ⟨w, ⟨from_start, to_high⟩, kept⟩ := left
  cases first with
  | @above v up inside notExcluded passed =>
    refine ⟨v, ⟨⟨⟨up, inside⟩, notExcluded⟩, fun x hx => Scalar.not_lt_iff.1 fun before => ?_⟩, rfl⟩
    exact hx.2 (passed x hx.1.1 before)
  | below _ _ _ passedAbove _ => exact absurd (passedAbove w from_start to_high) kept
  | none all => exact absurd (all w (Int.le_trans low from_start) to_high) kept

/-- If there is none but one below it is left, the least of these is found. -/
theorem FirstFrom.least_below (first : FirstFrom d start result) (high : start ≤ d.high)
    (noneAbove : d.keptFrom start = ∅) (left : (d.keptBelow start).Nonempty) :
    ∃ v, IsLeast (d.keptBelow start) v ∧ result = some v := by
  obtain ⟨w, ⟨from_low, to_start⟩, kept⟩ := left
  cases first with
  | @above v up inside notExcluded passed =>
    have mem : v ∈ d.keptFrom start := ⟨⟨up, inside⟩, notExcluded⟩
    rw [noneAbove] at mem
    exact absurd mem (Set.notMem_empty v)
  | @below v up inside notExcluded passedAbove passed =>
    refine ⟨v, ⟨⟨⟨up, inside⟩, notExcluded⟩, fun x hx => Scalar.not_lt_iff.1 fun before => ?_⟩, rfl⟩
    exact hx.2 (passed x hx.1.1 before)
  | none all => exact absurd (all w from_low (Int.le_of_lt (Int.lt_of_lt_of_le to_start high))) kept

/-- **A climb finds the nearest value and stops.** It starts at a value of the
interval. If a value from there up is not excluded, the climb finds the least of
these; otherwise the least of those below; and nothing exactly where all values
of the interval are excluded. Without any bound it comes to one end, which is
this, after at most one place more than there are excluded values in the
interval. -/
theorem climb_nearest (low : d.low ≤ start) (high : start ≤ d.high) :
    ((d.keptFrom start).Nonempty →
      ∃ v, IsLeast (d.keptFrom start) v ∧ d.climb start = some v) ∧
    (d.keptFrom start = ∅ → (d.keptBelow start).Nonempty →
      ∃ v, IsLeast (d.keptBelow start) v ∧ d.climb start = some v) ∧
    (d.climb start = none ↔ ∀ w, d.low ≤ w → w ≤ d.high → w ∈ d.excluded) ∧
    ∃ places ≤ d.excludedWithin.ncard + 1, ∀ n result,
      Climbs d start start false n result ↔ n = places ∧ result = d.climb start := by
  obtain ⟨places, most, run, first⟩ := exists_climbs low high
  refine ⟨first.least_above low, first.least_below high, first.eq_none_iff low high,
    places, most, fun n result => ⟨run.unique, ?_⟩⟩
  rintro ⟨rfl, rfl⟩
  exact run

end Climbing

/-- From minus one to the greatest scalar, without these two. -/
def endsExcluded : Domain :=
  { ofInterval (Scalar.belowZero 1) (Scalar.maxUnsigned 256) 0 with
    excluded := [Scalar.belowZero 1, Scalar.maxUnsigned 256] }

/-- From the greatest scalar a climb goes to the lower end, below zero, and
finds zero, after three places. -/
theorem climb_nearest_wraps :
    endsExcluded.low ≤ Scalar.maxUnsigned 256 ∧ Scalar.maxUnsigned 256 ≤ endsExcluded.high ∧
      endsExcluded.climb (Scalar.maxUnsigned 256) = some Scalar.zero ∧
      Climbs endsExcluded (Scalar.maxUnsigned 256) (Scalar.maxUnsigned 256) false 3
        (some Scalar.zero) := by
  have low : endsExcluded.low ≤ Scalar.maxUnsigned 256 := by decide
  have high : Scalar.maxUnsigned 256 ≤ endsExcluded.high := by decide
  obtain ⟨-, -, -, places, -, only⟩ := climb_nearest low high
  have run : Climbs endsExcluded (Scalar.maxUnsigned 256) (Scalar.maxUnsigned 256) false 3
      (some Scalar.zero) :=
    .onward (by decide) (by decide : _ = some (Scalar.belowZero 1, true))
      (.onward (by decide) (by decide : _ = some (Scalar.zero, true)) (.found (by decide)))
  obtain ⟨-, found⟩ := (only _ _).1 run
  exact ⟨low, high, found.symm, run⟩

end GuardedCalls.Domain
