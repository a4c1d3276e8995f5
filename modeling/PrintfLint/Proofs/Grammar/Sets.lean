import Mathlib.Data.List.Basic
import Mathlib.Data.List.Perm.Subperm
import Mathlib.Tactic.Linarith
import PrintfLint.Grammar

/-!
# PrintfLint.Proofs.Grammar.Sets — sets of symbols that grow until they are stable

* `SymbolSets.mem_of_add` — what a set holds after symbols were put in;
* `Inflates` — a step that changes nothing or makes a size larger; such steps compose, and a
  composition that changes nothing is made of steps that change nothing (`Inflates.foldl_fixed`);
* `Settles`, `settles_settle` — the repetition of such a step comes to an end if the size is
  bounded;
* `SymbolSets.Within` — sets without repetitions over some symbols, which bounds their size.
-/

namespace PrintfLint

theorem mem_sortSymbols {s : String} {symbols : List String} :
    s ∈ sortSymbols symbols ↔ s ∈ symbols := by
  rw [sortSymbols, List.mem_mergeSort, List.mem_eraseDups]

/-! ## Steps that make a size larger -/

/-- The step changes nothing or makes the size larger. -/
def Inflates {α : Type} (size : α → ℕ) (step : α → α) : Prop :=
  ∀ a, step a = a ∨ size a < size (step a)

namespace Inflates

variable {α β : Type} {size : α → ℕ}

theorem size_le {step : α → α} (h : Inflates size step) (a : α) : size a ≤ size (step a) := by
  rcases h a with heq | hlt
  · rw [heq]
  · exact hlt.le

theorem refl : Inflates size fun a => a := fun _ => .inl rfl

theorem comp {f g : α → α} (hf : Inflates size f) (hg : Inflates size g) :
    Inflates size fun a => g (f a) := by
  intro a
  rcases hf a with heq | hlt
  · simp only [heq]
    exact hg a
  · exact .inr (hlt.trans_le (hg.size_le (f a)))

/-- If two steps together change nothing, then neither does. -/
theorem fixed_of_comp {f g : α → α} (hf : Inflates size f) (hg : Inflates size g) {a : α}
    (h : g (f a) = a) : f a = a ∧ g a = a := by
  have hfixed : f a = a := by
    rcases hf a with heq | hlt
    · exact heq
    · have hback := hg.size_le (f a)
      rw [h] at hback
      exact absurd hlt hback.not_gt
  rw [hfixed] at h
  exact ⟨hfixed, h⟩

theorem foldl {f : α → β → α} (h : ∀ b, Inflates size fun a => f a b) (bs : List β) :
    Inflates size fun a => bs.foldl f a := by
  induction bs with
  | nil => exact refl
  | cons b bs ih => exact (h b).comp ih

theorem foldl_fixed {f : α → β → α} (h : ∀ b, Inflates size fun a => f a b) {bs : List β} {a : α}
    (hfold : bs.foldl f a = a) : ∀ b ∈ bs, f a b = a := by
  induction bs with
  | nil => simp
  | cons b bs ih =>
    rcases fixed_of_comp (h b) (foldl h bs) hfold with ⟨hfirst, hrest⟩
    intro c hc
    rcases List.mem_cons.mp hc with rfl | hc
    · exact hfirst
    · exact ih hrest c hc

end Inflates

theorem settle_inv {α : Type} [DecidableEq α] {step : α → α} (inv : α → Prop)
    (hinv : ∀ a, inv a → inv (step a)) (bound : ℕ) {a : α} (ha : inv a) :
    inv (settle step bound a) := by
  induction bound generalizing a with
  | zero => exact ha
  | succ bound ih =>
    rw [settle]
    split
    · exact ha
    · exact ih (hinv a ha)

/-- Repeated without any bound until it changes nothing, the step ends after finitely many rounds:
it leads from the first value to the second. -/
inductive Settles {α : Type} (step : α → α) : α → α → Prop where
  | stable {a : α} (h : step a = a) : Settles step a a
  | next {a b : α} (h : step a ≠ a) (later : Settles step (step a) b) : Settles step a b

theorem Settles.fixed {α : Type} {step : α → α} {a b : α} (h : Settles step a b) :
    step b = b := by
  induction h with
  | stable h => exact h
  | next _ _ ih => exact ih

/-- Enough repetitions of a step that makes a bounded size larger lead to where the step changes
nothing, as the repetition without a bound does. -/
theorem settles_settle {α : Type} [DecidableEq α] {step : α → α} {size : α → ℕ} {most : ℕ}
    (inv : α → Prop) (hstep : Inflates size step) (hinv : ∀ a, inv a → inv (step a))
    (hmost : ∀ a, inv a → size a ≤ most) {bound : ℕ} {a : α} (ha : inv a)
    (hbound : most < size a + bound) :
    Settles step a (settle step bound a) := by
  -- a round that changes something uses up one round and at least one unit of size
  induction bound generalizing a with
  | zero =>
    have := hmost a ha
    omega
  | succ bound ih =>
    rw [settle]
    split
    · exact .stable ‹_›
    · rename_i hne
      have hlt := (hstep a).resolve_left hne
      exact .next hne (ih (hinv a ha) (by omega))

/-! ## Unions -/

theorem unite_cons (s : String) (a b : List String) :
    unite (s :: a) b = if s ∈ unite a b then unite a b else s :: unite a b := by
  have hstep : unite (s :: a) b = List.insert s (unite a b) := rfl
  by_cases h : s ∈ unite a b <;> simp [hstep, h]

theorem suffix_unite (a b : List String) : b <:+ unite a b := by
  induction a with
  | nil => exact List.suffix_rfl
  | cons s a ih =>
    rw [unite_cons]
    split
    · exact ih
    · exact ih.trans (List.suffix_cons s (unite a b))

theorem nodup_unite {b : List String} (hb : b.Nodup) (a : List String) : (unite a b).Nodup := by
  induction a with
  | nil => exact hb
  | cons s a ih =>
    rw [unite_cons]
    split
    · exact ih
    · exact List.nodup_cons.mpr ⟨‹_›, ih⟩

/-- A union is the second set or has more elements. -/
theorem unite_eq_or_length_lt (a b : List String) :
    unite a b = b ∨ b.length < (unite a b).length := by
  have hsuffix := suffix_unite a b
  rcases hsuffix.length_le.eq_or_lt with heq | hlt
  · exact .inl (hsuffix.eq_of_length heq).symm
  · exact .inr hlt

namespace SymbolSets

/-! ## Entries -/

/-- The nonterminals that have a set. -/
def keys (sets : SymbolSets) : List String :=
  sets.map Prod.fst

theorem keys_empty (nonterminals : List String) : (empty nonterminals).keys = nonterminals := by
  simp [keys, empty, Function.comp_def]

theorem keys_add (sets : SymbolSets) (n : String) (symbols : List String) :
    (sets.add n symbols).keys = sets.keys := by
  simp only [keys, add, List.map_map]
  apply List.map_congr_left
  rintro ⟨m, old⟩ _
  by_cases h : m = n <;> simp [h]

theorem add_cons (m : String) (old : List String) (sets : SymbolSets) (n : String)
    (symbols : List String) :
    add ((m, old) :: sets) n symbols =
      (m, if m = n then unite symbols old else old) :: add sets n symbols := by
  by_cases h : m = n <;> simp [add, h]

theorem of_cons (m : String) (old : List String) (sets : SymbolSets) (n : String) :
    of ((m, old) :: sets) n = if n = m then old else of sets n := by
  simp only [of, List.lookup_cons]
  by_cases h : n = m
  · simp [h]
  · have hne : (n == m) = false := beq_false_of_ne h
    simp [h, hne]

theorem of_empty (nonterminals : List String) (n : String) : (empty nonterminals).of n = [] := by
  induction nonterminals with
  | nil => rfl
  | cons m nonterminals ih =>
    have hcons : empty (m :: nonterminals) = (m, []) :: empty nonterminals := rfl
    rw [hcons, of_cons, ih, ite_self]

/-- Symbols that are put in come to the old ones, if the nonterminal has a set. -/
theorem mem_of_add {sets : SymbolSets} {n m s : String} {symbols : List String} :
    s ∈ (sets.add n symbols).of m ↔
      s ∈ sets.of m ∨ (m = n ∧ n ∈ sets.keys ∧ s ∈ symbols) := by
  induction sets with
  | nil => simp [add, keys]
  | cons e sets ih =>
    rcases e with ⟨k, old⟩
    have hkeys : keys ((k, old) :: sets) = k :: keys sets := rfl
    rw [add_cons, of_cons, of_cons, hkeys, List.mem_cons]
    by_cases hm : m = k
    · -- the first entry is the one that is looked up; the others do not matter
      subst hm
      by_cases hk : m = n
      · subst hk
        simp only [if_true, mem_unite, true_or, true_and]
        exact or_comm
      · simp [hk]
    · simp only [if_neg hm, ih]
      constructor
      · rintro (h | ⟨rfl, hn, hs⟩)
        · exact .inl h
        · exact .inr ⟨rfl, .inr hn, hs⟩
      · rintro (h | ⟨rfl, hn, hs⟩)
        · exact .inl h
        · exact .inr ⟨rfl, hn.resolve_left hm, hs⟩

/-- A set that does not change when symbols are put in holds them already. -/
theorem mem_of_add_fixed {sets : SymbolSets} {n : String} {symbols : List String}
    (h : sets.add n symbols = sets) (hn : n ∈ sets.keys) {s : String} (hs : s ∈ symbols) :
    s ∈ sets.of n := by
  rw [← h]
  exact mem_of_add.mpr (.inr ⟨rfl, hn, hs⟩)

/-! ## Size -/

/-- The number of symbols in all sets. -/
def size (sets : SymbolSets) : ℕ :=
  (sets.map fun e => e.2.length).sum

theorem size_cons (n : String) (symbols : List String) (sets : SymbolSets) :
    size ((n, symbols) :: sets) = symbols.length + size sets := by
  simp [size]

theorem add_inflates (n : String) (symbols : List String) :
    Inflates size fun sets => sets.add n symbols := by
  intro sets
  induction sets with
  | nil => exact .inl rfl
  | cons e sets ih =>
    rcases e with ⟨m, old⟩
    have hrest : add sets n symbols = sets ∨ size sets < size (add sets n symbols) := ih
    -- the set under the name grows or stays as it is, and so does what comes behind
    have hset : (if m = n then unite symbols old else old) = old ∨
        old.length < (if m = n then unite symbols old else old).length := by
      split
      · exact unite_eq_or_length_lt symbols old
      · exact .inl rfl
    simp only [add_cons, size_cons]
    -- nothing changes only if neither does
    rcases hset with hold | hold <;> rcases hrest with hrest | hrest
    · exact .inl (by rw [hold, hrest])
    · exact .inr (by rw [hold]; omega)
    · exact .inr (by rw [hrest]; omega)
    · exact .inr (by omega)

/-- Sets for the given nonterminals, without repetitions and over the given symbols. -/
structure Within (nonterminals universe_ : List String) (sets : SymbolSets) : Prop where
  keys_eq : sets.keys = nonterminals
  nodup : ∀ e ∈ sets, e.2.Nodup
  subset : ∀ e ∈ sets, e.2 ⊆ universe_

variable {nonterminals universe_ : List String}

theorem Within.empty : Within nonterminals universe_ (empty nonterminals) where
  keys_eq := keys_empty nonterminals
  nodup := by simp [SymbolSets.empty]
  subset := by simp [SymbolSets.empty]

theorem Within.add {sets : SymbolSets} (h : Within nonterminals universe_ sets) (n : String)
    {symbols : List String} (hsymbols : symbols ⊆ universe_) :
    Within nonterminals universe_ (sets.add n symbols) where
  keys_eq := (keys_add sets n symbols).trans h.keys_eq
  nodup := by
    intro e he
    rcases List.mem_map.mp he with ⟨⟨m, old⟩, hold, rfl⟩
    have hnodup := h.nodup _ hold
    -- only the set under this name changes
    by_cases hm : m = n
    · simpa [hm] using nodup_unite hnodup symbols
    · simpa [hm] using hnodup
  subset := by
    intro e he
    rcases List.mem_map.mp he with ⟨⟨m, old⟩, hold, rfl⟩
    have hsubset := h.subset _ hold
    -- its new elements come from the added symbols, and the old ones were there before
    by_cases hm : m = n
    · simp only [hm, if_true]
      intro s hs
      exact (mem_unite.mp hs).elim (fun hs => hsymbols hs) (fun hs => hsubset hs)
    · simpa [hm] using hsubset

/-- What a nonterminal has in its set is one of the symbols. -/
theorem Within.of_subset {sets : SymbolSets} (h : Within nonterminals universe_ sets)
    (n : String) : sets.of n ⊆ universe_ := by
  have hsubset := h.subset
  clear h
  induction sets with
  | nil => simp [of]
  | cons e sets ih =>
    rcases e with ⟨m, old⟩
    rw [of_cons]
    -- the set at the head of the list, or one further down
    split
    · exact hsubset _ List.mem_cons_self
    · exact ih fun e he => hsubset e (List.mem_cons_of_mem _ he)

/-- Sets without repetitions are no larger than all symbols for all nonterminals. -/
theorem Within.size_le {sets : SymbolSets} (h : Within nonterminals universe_ sets) :
    sets.size ≤ nonterminals.length * universe_.length := by
  have hlength : sets.length = nonterminals.length := by
    rw [← h.keys_eq, keys, List.length_map]
  have heach : ∀ e ∈ sets, e.2.length ≤ universe_.length := fun e he =>
    (List.subperm_of_subset (h.nodup e he) (h.subset e he)).length_le
  -- only the entries are counted from here on
  rw [← hlength]
  clear h hlength
  induction sets with
  | nil => simp [size]
  | cons e sets ih =>
    have hfirst := heach e List.mem_cons_self
    have hrest := ih fun e he => heach e (List.mem_cons_of_mem _ he)
    rw [size_cons, List.length_cons, Nat.succ_mul]
    omega

end SymbolSets

end PrintfLint
