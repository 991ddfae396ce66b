/-
GuardedCalls.Proofs.TableTheorems — tables in the order of their keys.

* `get?_eq_some_iff_mem`, `Ordered.get?_eq_some_iff` — what is found under a key is
  what stands under it, if nothing else does.
* `Ordered.get?_alter` — what such a table holds after `alter`.
* `Ordered.ext` — it is known by what it holds.
* `Ordered.get?_absorb` — what it holds after the entries of another table are
  added to it one by one.
-/
import GuardedCalls.Table
import Mathlib.Data.List.Sort

namespace GuardedCalls.Table

variable {κ α : Type}

/-! ## Keys -/

section Keys

variable [DecidableEq κ] {key other : κ} {t : Table κ α}

theorem get?_eq_none_iff : t.get? key = none ↔ key ∉ t.keys := by
  induction t with
  | nil => simp [get?, keys]
  | cons entry rest ih =>
    obtain ⟨k, v⟩ := entry
    simp only [keys] at ih
    by_cases h : k = key
    · simp [get?, keys, h]
    · simp [get?, keys, h, ih, Ne.symm h]

theorem mem_keys_iff : key ∈ t.keys ↔ (t.get? key).isSome := by
  rw [← Option.ne_none_iff_isSome, Ne, get?_eq_none_iff, not_not]

theorem mem_of_get? {v : α} (h : t.get? key = some v) : (key, v) ∈ t := by
  induction t with
  | nil => cases h
  | cons first rest ih =>
    obtain ⟨k, w⟩ := first
    unfold get? at h
    split at h
    · next same =>
      cases h
      rw [same]
      exact List.mem_cons_self
    · exact List.mem_cons_of_mem _ (ih h)

/-- Where a key has one value at most, the table holds that one. -/
theorem get?_eq_some_iff_mem {v : α} (unique : ∀ w, (key, v) ∈ t → (key, w) ∈ t → v = w) :
    t.get? key = some v ↔ (key, v) ∈ t := by
  refine ⟨mem_of_get?, fun h => ?_⟩
  have known : key ∈ t.keys := List.mem_map.2 ⟨_, h, rfl⟩
  obtain ⟨w, found⟩ := Option.isSome_iff_exists.1 (mem_keys_iff.1 known)
  rw [found, unique w h (mem_of_get? found)]

variable [LT κ] [DecidableLT κ] {f : Option α → α}

theorem get?_alter_of_ne (h : other ≠ key) : (t.alter key f).get? other = t.get? other := by
  induction t with
  | nil => simp [alter, get?, h.symm]
  | cons entry rest ih =>
    obtain ⟨k, v⟩ := entry
    by_cases same : k = key
    · simp [alter, get?, same, h.symm]
    · by_cases before : key < k
      · simp [alter, get?, same, before, h.symm]
      · simp [alter, get?, same, before, ih]

end Keys

/-! ## Ordered tables -/

section Ordered

variable [LT κ] {key other k : κ} {v : α} {t t' rest : Table κ α} {f : Option α → α}

theorem Ordered.tail (h : Ordered ((k, v) :: rest)) : Ordered rest := List.Pairwise.of_cons h

theorem Ordered.lt_of_mem (h : Ordered ((k, v) :: rest)) (mem : other ∈ rest.keys) : k < other :=
  List.rel_of_pairwise_cons h mem

variable [DecidableEq κ] [IsStrictTotalOrder κ (· < ·)]

/-- A key before the first is not there. -/
theorem Ordered.get?_of_lt (h : Ordered ((k, v) :: rest)) (before : key < k) :
    get? key ((k, v) :: rest) = none := by
  refine get?_eq_none_iff.2 fun mem => ?_
  rcases List.mem_cons.1 mem with rfl | mem
  · exact irrefl key before
  · exact irrefl key (IsTrans.trans _ _ _ before (h.lt_of_mem mem))

/-- The first key does not come again. -/
theorem Ordered.get?_tail (h : Ordered ((k, v) :: rest)) : rest.get? k = none :=
  get?_eq_none_iff.2 fun mem => irrefl k (h.lt_of_mem mem)

theorem Ordered.get?_eq_some_iff (h : Ordered t) : t.get? key = some v ↔ (key, v) ∈ t := by
  refine get?_eq_some_iff_mem fun w first second => ?_
  have nodup : (t.map (·.1)).Nodup := by
    refine List.Pairwise.imp (fun {a b} less => ?_) h
    rintro rfl
    exact irrefl a less
  exact congrArg Prod.snd (List.inj_on_of_nodup_map nodup first second rfl)

/-- An ordered table is known by what it holds. -/
theorem Ordered.ext (h : Ordered t) (h' : Ordered t') (same : ∀ key, t.get? key = t'.get? key) :
    t = t' := by
  induction t generalizing t' with
  | nil =>
    cases t' with
    | nil => rfl
    | cons entry rest => simpa [get?] using same entry.1
  | cons entry rest ih =>
    obtain ⟨k, v⟩ := entry
    cases t' with
    | nil => simpa [get?] using same k
    | cons entry' rest' =>
      obtain ⟨k', v'⟩ := entry'
      have first : k = k' := by
        have low : ¬ k < k' := fun before => by
          have found := same k
          rw [h'.get?_of_lt before] at found
          simp [get?] at found
        have high : ¬ k' < k := fun before => by
          have found := same k'
          rw [h.get?_of_lt before] at found
          simp [get?] at found
        exact Std.Trichotomous.trichotomous k k' low high
      subst first
      have value : v = v' := by simpa [get?] using same k
      subst value
      rw [ih h.tail h'.tail fun key => ?_]
      by_cases own : k = key
      · rw [← own, h.get?_tail, h'.get?_tail]
      · simpa [get?, own] using same key

variable [DecidableLT κ]

theorem Ordered.get?_alter_self (h : Ordered t) :
    (t.alter key f).get? key = some (f (t.get? key)) := by
  induction t with
  | nil => simp [Table.alter, get?]
  | cons entry rest ih =>
    obtain ⟨k, v⟩ := entry
    by_cases same : k = key
    · simp [Table.alter, get?, same]
    by_cases before : key < k
    · rw [h.get?_of_lt before, Table.alter, if_neg same, if_pos before, get?, if_pos rfl]
    · rw [Table.alter, if_neg same, if_neg before, get?, get?, if_neg same, if_neg same, ih h.tail]

/-- The key has the new value, and the others have what they had. -/
theorem Ordered.get?_alter (h : Ordered t) (key other : κ) (f : Option α → α) :
    (t.alter key f).get? other = if other = key then some (f (t.get? key)) else t.get? other := by
  split
  · next same => rw [same, h.get?_alter_self]
  · next differs => exact get?_alter_of_ne differs

/-- Adds the entries of another table. Where both have a value, the two are combined. -/
def absorb (combine : α → α → α) (t other : Table κ α) : Table κ α :=
  other.foldl (fun t (key, v) => t.alter key fun old => (old.map (combine · v)).getD v) t

/-- A table holds what either held, combined where both did. -/
theorem Ordered.get?_absorb (h : Ordered t) (h' : Ordered t') (combine : α → α → α) (key : κ) :
    (t.absorb combine t').get? key = Option.merge combine (t.get? key) (t'.get? key) := by
  induction t' generalizing t with
  | nil => simp [Table.absorb, get?]
  | cons entry rest ih =>
    obtain ⟨k, v⟩ := entry
    change ((t.alter k fun old => (old.map (combine · v)).getD v).absorb combine rest).get? key = _
    rw [ih (h.alter _ _) h'.tail, h.get?_alter, get?]
    by_cases own : key = k
    · rw [if_pos own, if_pos own.symm, own, h'.get?_tail]
      cases t.get? k <;> rfl
    · rw [if_neg own, if_neg (Ne.symm own)]

end Ordered

end GuardedCalls.Table
