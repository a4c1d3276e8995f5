import Mathlib.Data.Finset.Basic
import PrintfLint.Proofs.Grammar.First

/-!
# PrintfLint.Proofs.Grammar.Sequence — FIRST of two strings in a row, and from larger sets

* `mem_firstOf_append` — what two strings in a row can start with, from what each of them can;
* `firstOf_mono` — from larger sets of the nonterminals a string starts with no less;
* `firstSet`, `symbolSet` — FIRST of a string and of one symbol, as sets;
* `firstSet_append_mono` — FIRST of a string is put together from that of its symbols, and grows
  with the sets of the nonterminals.

FIRST looks behind a nonterminal only if the set of that holds `ε`. A larger set may hold it where
the smaller one does not, so FIRST from larger sets may look further; it keeps what it has found
before.
-/

namespace PrintfLint

variable {nonterminals : List String} {first first' : SymbolSets}

/-- Two strings in a row start with what the first of them starts with, and if that can vanish also
with what the second one starts with. -/
theorem mem_firstOf_append {a b : List String} {s : String} :
    s ∈ firstOf nonterminals first (a ++ b) ↔
      (s ∈ firstOf nonterminals first a ∧ s ≠ epsilon) ∨
        (epsilon ∈ firstOf nonterminals first a ∧ s ∈ firstOf nonterminals first b) := by
  induction a using symbols_induction nonterminals with
  | nil => simp [firstOf]
  | vanishing rest ih => rw [List.cons_append, firstOf_epsilon, firstOf_epsilon, ih]
  | nonterminal n rest hn hne ih =>
    -- the string can vanish if the nonterminal and what comes after it can
    have hgone : epsilon ∈ firstOf nonterminals first (n :: rest) ↔
        epsilon ∈ first.of n ∧ epsilon ∈ firstOf nonterminals first rest := by
      rw [mem_firstOf_nonterminal hn hne]
      simp
    rw [List.cons_append, hgone, mem_firstOf_nonterminal hn hne, mem_firstOf_nonterminal hn hne, ih]
    simp only [and_or_left, or_and_right, and_assoc, or_assoc, and_self]
  | terminal t rest ht hne _ =>
    rw [List.cons_append, firstOf_terminal ht hne, firstOf_terminal ht hne, List.mem_singleton,
      List.mem_singleton]
    constructor
    · rintro rfl
      exact .inl ⟨rfl, hne⟩
    · rintro (⟨hs, _⟩ | ⟨hepsilon, _⟩)
      · exact hs
      · exact absurd hepsilon.symm hne

/-- If the sets of the nonterminals become larger, so does FIRST of a string. -/
theorem firstOf_mono (h : ∀ n ∈ nonterminals, first.of n ⊆ first'.of n) (form : List String) :
    firstOf nonterminals first form ⊆ firstOf nonterminals first' form := by
  induction form using symbols_induction nonterminals with
  | nil => exact List.Subset.refl _
  | vanishing rest ih =>
    rw [firstOf_epsilon, firstOf_epsilon]
    exact ih
  | nonterminal n rest hn hne ih =>
    intro s hs
    rw [mem_firstOf_nonterminal hn hne] at hs ⊢
    -- a symbol of the nonterminal itself, or one from behind it, now as then
    rcases hs with ⟨hs, hsne⟩ | ⟨hgone, hs⟩
    · exact .inl ⟨h n hn hs, hsne⟩
    · exact .inr ⟨h n hn hgone, ih hs⟩
  | terminal t rest ht hne _ =>
    rw [firstOf_terminal ht hne, firstOf_terminal ht hne]
    exact List.Subset.refl _

/-! ## Sets -/

/-- FIRST of a string, as a set. -/
def firstSet (nonterminals : List String) (first : SymbolSets) (form : List String) :
    Finset String :=
  (firstOf nonterminals first form).toFinset

/-- FIRST of a single symbol. -/
def symbolSet (nonterminals : List String) (first : SymbolSets) (s : String) : Finset String :=
  if s = epsilon then {epsilon}
  else if s ∈ nonterminals then (first.of s).toFinset
  else {s}

theorem mem_firstSet {form : List String} {s : String} :
    s ∈ firstSet nonterminals first form ↔ s ∈ firstOf nonterminals first form :=
  List.mem_toFinset

theorem firstSet_nil : firstSet nonterminals first [] = {epsilon} := rfl

theorem firstSet_singleton (s : String) :
    firstSet nonterminals first [s] = symbolSet nonterminals first s := by
  unfold symbolSet
  split
  · rename_i heq
    rw [heq, firstSet, firstOf_epsilon]
    rfl
  · rename_i hne
    split
    · rename_i hs
      ext t
      rw [mem_firstSet, mem_firstOf_nonterminal hs hne, List.mem_toFinset, firstOf,
        List.mem_singleton]
      -- epsilon is taken out of the set of a nonterminal and put in again for the empty rest
      by_cases ht : t = epsilon
      · simp [ht]
      · simp [ht]
    · rename_i hs
      rw [firstSet, firstOf_terminal hs hne]
      rfl

theorem firstSet_append_of_notMem {a b : List String}
    (h : epsilon ∉ firstSet nonterminals first a) :
    firstSet nonterminals first (a ++ b) = firstSet nonterminals first a := by
  rw [mem_firstSet] at h
  ext s
  rw [mem_firstSet, mem_firstSet, mem_firstOf_append]
  constructor
  · -- what stands behind counts only if the first part can vanish
    rintro (⟨hs, _⟩ | ⟨hepsilon, _⟩)
    · exact hs
    · exact absurd hepsilon h
  · intro hs
    refine .inl ⟨hs, ?_⟩
    rintro rfl
    exact h hs

theorem firstSet_append_of_mem {a b : List String} (h : epsilon ∈ firstSet nonterminals first a) :
    firstSet nonterminals first (a ++ b) =
      (firstSet nonterminals first a \ {epsilon}) ∪ firstSet nonterminals first b := by
  rw [mem_firstSet] at h
  ext s
  rw [Finset.mem_union, Finset.mem_sdiff, Finset.mem_singleton, mem_firstSet, mem_firstSet,
    mem_firstSet, mem_firstOf_append]
  exact or_congr_right (and_iff_right h)

/-- FIRST of a string is put together from that of its symbols. FIRST of two strings in a row is
that of the first one, unless that holds `ε`: then FIRST of the second one takes the place of the
`ε`. And if no set of a nonterminal becomes smaller, FIRST of no string does. Sets may be missing,
and it does not matter whether `ε` is among the nonterminals, since FIRST passes over it in any
case. -/
theorem firstSet_append_mono (nonterminals : List String) (first : SymbolSets) :
    (firstSet nonterminals first [] = {epsilon} ∧
      ∀ s, firstSet nonterminals first [s] = symbolSet nonterminals first s) ∧
    (∀ a b : List String,
      (epsilon ∉ firstSet nonterminals first a →
        firstSet nonterminals first (a ++ b) = firstSet nonterminals first a) ∧
      (epsilon ∈ firstSet nonterminals first a →
        firstSet nonterminals first (a ++ b) =
          (firstSet nonterminals first a \ {epsilon}) ∪ firstSet nonterminals first b)) ∧
    ∀ first' : SymbolSets, (∀ n ∈ nonterminals, first.of n ⊆ first'.of n) →
      ∀ form, firstSet nonterminals first form ⊆ firstSet nonterminals first' form := by
  refine ⟨⟨firstSet_nil, firstSet_singleton⟩, ?_, ?_⟩
  · exact fun a b => ⟨firstSet_append_of_notMem, firstSet_append_of_mem⟩
  · intro first' h form s hs
    rw [mem_firstSet] at hs ⊢
    exact firstOf_mono h form hs

/-- The set of a nonterminal is missing, and what comes behind it does not count. With a set that
holds `ε` it does. -/
theorem firstSet_append_mono_missingSet :
    let names := ["A", "B"]
    let first : SymbolSets := [("A", ["a", epsilon])]
    let first' : SymbolSets := [("B", [epsilon, "b"]), ("A", [epsilon, "a"])]
    (∀ n ∈ names, first.of n ⊆ first'.of n) ∧
      epsilon ∈ firstSet names first ["A"] ∧ epsilon ∉ firstSet names first ["A", "B"] ∧
      firstSet names first ["A", "B", "c"] =
        (firstSet names first ["A"] \ {epsilon}) ∪ firstSet names first ["B", "c"] ∧
      firstSet names first ["A", "B", "c"] = firstSet names first ["A", "B"] ∧
      firstSet names first ["A", "B", "c"] ⊆ firstSet names first' ["A", "B", "c"] ∧
      "c" ∈ firstSet names first' ["A", "B", "c"] \ firstSet names first ["A", "B", "c"] := by
  intro names first first'
  have hgone : epsilon ∈ firstSet names first ["A"] := by decide +kernel
  have hstops : epsilon ∉ firstSet names first ["A", "B"] := by decide +kernel
  have hlarger : ∀ n ∈ names, first.of n ⊆ first'.of n := by decide +kernel
  obtain ⟨-, happend, hmono⟩ := firstSet_append_mono names first
  -- the law needs to know of epsilon in the first set, and only this is evaluated
  refine ⟨hlarger, hgone, hstops, (happend ["A"] ["B", "c"]).2 hgone,
    (happend ["A", "B"] ["c"]).1 hstops, hmono first' hlarger _, by decide +kernel⟩

end PrintfLint
