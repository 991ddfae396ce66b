/-
GuardedCalls.Power — which power of numbers `2 ^ n` stands for.

The definitions of this library do without Mathlib and its theorems build on
it. Mathlib brings powers in every monoid, which on `Nat` and `Int` come to
the same numbers as the powers of the core library but are other terms.
Powers with a natural exponent are those of the core library throughout, so a
bound has one form in the definitions and in what is said about them.
-/

attribute [instance (20000), default_instance (20000)] instPowNat
