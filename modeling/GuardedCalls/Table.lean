/-
GuardedCalls.Table — finite tables.

A table is a list of keys with their values. It is built in one of two
ways, and no key stands twice in either:

* `put` — in the order in which the keys were first put in. A key that is
  put in again keeps its place and takes the new value.
* `alter` — in the order of the keys. The new value of a key is made from
  the old one, if there is one.

Main statements: `get?_put_self` and `get?_put_of_ne` say what a table
holds after `put`; `Ordered.alter` and `Ordered.foldl_alter`, that `alter`
keeps the order of the keys.
-/

namespace GuardedCalls

/-- Keys with their values. -/
abbrev Table (κ α : Type) := List (κ × α)

namespace Table

variable {κ α : Type} [DecidableEq κ]

/-- The value of a key. -/
def get? (key : κ) : Table κ α → Option α
  | [] => none
  | (k, v) :: rest => if k = key then some v else get? key rest

/-- Gives a key a value. -/
def put (key : κ) (value : α) : Table κ α → Table κ α
  | [] => [(key, value)]
  | (k, v) :: rest => if k = key then (key, value) :: rest else (k, v) :: put key value rest

/-- Gives a key of a table in the order of its keys the value that `f`
makes of its old one. -/
def alter [LT κ] [DecidableLT κ] (key : κ) (f : Option α → α) : Table κ α → Table κ α
  | [] => [(key, f none)]
  | (k, v) :: rest =>
    if k = key then (key, f (some v)) :: rest
    else if key < k then (key, f none) :: (k, v) :: rest
    else (k, v) :: alter key f rest

/-- The keys, in the order of the table. -/
def keys (t : Table κ α) : List κ := t.map (·.1)

@[simp] theorem get?_put_self (key : κ) (value : α) (t : Table κ α) :
    (put key value t).get? key = some value := by
  induction t with
  | nil => simp [put, get?]
  | cons entry rest ih =>
    obtain ⟨k, v⟩ := entry
    by_cases h : k = key <;> simp [put, get?, h, ih]

theorem get?_put_of_ne {key other : κ} (value : α) (t : Table κ α) (h : other ≠ key) :
    (put key value t).get? other = t.get? other := by
  induction t with
  | nil => simp [put, get?, h.symm]
  | cons entry rest ih =>
    obtain ⟨k, v⟩ := entry
    by_cases hk : k = key
    · subst hk; simp [put, get?, h.symm]
    · simp [put, get?, hk, ih]

/-! ## The order of the keys -/

/-- The keys stand in their order, each of them once. -/
def Ordered [LT κ] (t : Table κ α) : Prop := t.keys.Pairwise (· < ·)

omit [DecidableEq κ] in
theorem ordered_nil [LT κ] : Ordered ([] : Table κ α) := List.Pairwise.nil

section Ordered

variable [LT κ] [DecidableLT κ] {key other : κ} {f : Option α → α} {t : Table κ α}

theorem mem_keys_alter : other ∈ (t.alter key f).keys ↔ other = key ∨ other ∈ t.keys := by
  induction t with
  | nil => simp [alter, keys]
  | cons entry rest ih =>
    obtain ⟨k, v⟩ := entry
    simp only [keys] at ih ⊢
    by_cases same : k = key
    · simp [alter, same]
    · by_cases before : key < k
      · simp [alter, same, before]
      · simp [alter, same, before, ih, or_left_comm]

variable [Trans (α := κ) (· < ·) (· < ·) (· < ·)] [Std.Trichotomous (α := κ) (· < ·)]

theorem Ordered.alter (h : Ordered t) (key : κ) (f : Option α → α) : Ordered (t.alter key f) := by
  induction t with
  | nil => exact List.pairwise_singleton _ _
  | cons entry rest ih =>
    obtain ⟨k, v⟩ := entry
    obtain ⟨first, others⟩ := List.pairwise_cons.1 h
    by_cases same : k = key
    · subst same
      rw [Table.alter, if_pos rfl]
      exact h
    by_cases before : key < k
    · rw [Table.alter, if_neg same, if_pos before]
      refine List.pairwise_cons.2 ⟨List.forall_mem_cons.2 ⟨before, fun k' hk' => ?_⟩, h⟩
      exact Std.lt_trans before (first k' hk')
    · rw [Table.alter, if_neg same, if_neg before]
      refine List.pairwise_cons.2 ⟨fun k' hk' => ?_, ih others⟩
      rcases mem_keys_alter.1 hk' with rfl | old
      · exact ((Std.lt_trichotomy k k').resolve_right (by simp [same, before]))
      · exact first k' old

/-- Keys that are given values in turn come into their order. -/
theorem Ordered.foldl_alter {β : Type} (h : Ordered t) (items : List β) (key : β → κ)
    (value : β → Option α → α) :
    Ordered (items.foldl (fun t item => t.alter (key item) (value item)) t) := by
  induction items generalizing t with
  | nil => exact h
  | cons item items ih => exact ih (h.alter _ _)

end Ordered

end Table

end GuardedCalls
