import Mathlib.Logic.Relation
import PrintfLint.Grammar

/-!
# PrintfLint.Proofs.Grammar.Derivation — what a grammar derives

The language of a grammar, said without any algorithm.

* `spell`, `Production.word` — a right side with `ε` read as the empty string;
* `Grammar.Declared`, `Grammar.WellFormed`, `Grammar.Marked` — what is asked of a grammar;
* `Grammar.Rewrites`, `Grammar.Derives` — a derivation step and derivations;
* `Grammar.RewritesFirst`, `Grammar.Leftmost` — the same for leftmost derivations, with the rules;
* `Grammar.Generates` — the terminal strings that the start symbol derives;
* `Grammar.Yields` — derivation trees: a string of symbols above, a terminal string below;
* `Grammar.Vanishes`, `Grammar.Opens` — a string can become empty, and can start with a terminal.

Main statement: `generates_iff_yields`, trees and derivations come to the same language. Trees are
what inductions are on, since a tree falls apart into one tree for each symbol (`yields_append`).
-/

namespace PrintfLint

/-- A string of symbols with every `ε` read as the empty string. -/
def spell (symbols : List String) : List String :=
  symbols.filter fun s => s ≠ epsilon

/-- What a rule writes. -/
def Production.word (p : Production) : List String :=
  spell p.rhs

theorem spell_cons_epsilon (rest : List String) : spell (epsilon :: rest) = spell rest := by
  simp [spell]

theorem spell_cons {s : String} (h : s ≠ epsilon) (rest : List String) :
    spell (s :: rest) = s :: spell rest := by
  simp [spell, h]

theorem mem_spell {s : String} {symbols : List String} :
    s ∈ spell symbols ↔ s ∈ symbols ∧ s ≠ epsilon := by
  simp [spell]

theorem epsilon_notMem_word (p : Production) : epsilon ∉ p.word := by
  intro h
  exact (mem_spell.mp h).2 rfl

namespace Grammar

variable {g : Grammar}

/-! ## What is asked of a grammar -/

/-- Left sides are nonterminals, and the symbol for the empty string is none. -/
structure Declared (g : Grammar) : Prop where
  lhs_mem : ∀ p ∈ g.productions, p.lhs ∈ g.nonterminals
  epsilon_notMem : epsilon ∉ g.nonterminals

theorem Declared.ne_epsilon (hg : g.Declared) {n : String} (hn : n ∈ g.nonterminals) :
    n ≠ epsilon := by
  rintro rfl
  exact hg.epsilon_notMem hn

/-- The start symbol and the left sides are nonterminals, the two special symbols are none; the end
mark and the empty symbol occur in no rule, and `ε` only as a whole right side. -/
structure WellFormed (g : Grammar) : Prop extends Declared g where
  start_mem : g.start ∈ g.nonterminals
  endMark_notMem : endMark ∉ g.nonterminals
  endMark_notMem_rhs : ∀ p ∈ g.productions, endMark ∉ p.rhs
  empty_notMem_rhs : ∀ p ∈ g.productions, "" ∉ p.rhs
  epsilon_alone : ∀ p ∈ g.productions, epsilon ∈ p.rhs → p.rhs = [epsilon]

/-- The same, but rules may hold the empty symbol. -/
structure Marked (g : Grammar) : Prop extends Declared g where
  start_mem : g.start ∈ g.nonterminals
  endMark_notMem : endMark ∉ g.nonterminals
  endMark_notMem_rhs : ∀ p ∈ g.productions, endMark ∉ p.rhs
  epsilon_alone : ∀ p ∈ g.productions, epsilon ∈ p.rhs → p.rhs = [epsilon]

theorem WellFormed.marked (hg : g.WellFormed) : g.Marked where
  toDeclared := hg.toDeclared
  start_mem := hg.start_mem
  endMark_notMem := hg.endMark_notMem
  endMark_notMem_rhs := hg.endMark_notMem_rhs
  epsilon_alone := hg.epsilon_alone

/-! ## Derivations -/

/-- One step of a derivation: a left side is replaced by what its rule writes. -/
inductive Rewrites (g : Grammar) : List String → List String → Prop where
  | rule {p : Production} (hp : p ∈ g.productions) (before after : List String) :
      Rewrites g (before ++ p.lhs :: after) (before ++ (p.word ++ after))

/-- Any number of steps. -/
def Derives (g : Grammar) : List String → List String → Prop :=
  Relation.ReflTransGen g.Rewrites

/-- The terminal strings that the start symbol derives. -/
def Generates (g : Grammar) (word : List String) : Prop :=
  (∀ s ∈ word, s ∉ g.nonterminals) ∧ g.Derives [g.start] word

theorem Rewrites.context {a b : List String} (h : g.Rewrites a b) (left right : List String) :
    g.Rewrites (left ++ (a ++ right)) (left ++ (b ++ right)) := by
  cases h with
  | rule hp before after =>
    have hstep := Rewrites.rule hp (left ++ before) (after ++ right)
    simpa only [List.append_assoc, List.cons_append] using hstep

theorem Derives.context {a b : List String} (h : g.Derives a b) (left right : List String) :
    g.Derives (left ++ (a ++ right)) (left ++ (b ++ right)) := by
  induction h with
  | refl => exact .refl
  | tail _ hstep ih => exact ih.tail (hstep.context left right)

theorem Derives.append {a b c d : List String} (h : g.Derives a b) (h' : g.Derives c d) :
    g.Derives (a ++ c) (b ++ d) := by
  have hleft : g.Derives (a ++ c) (b ++ c) := h.context [] c
  have hright : g.Derives (b ++ c) (b ++ d) := by
    simpa only [List.append_nil] using h'.context b []
  exact hleft.trans hright

/-- A left side derives what its rule writes. -/
theorem derives_rule {p : Production} (hp : p ∈ g.productions) : g.Derives [p.lhs] p.word := by
  have hstep : g.Rewrites [p.lhs] p.word := by
    simpa only [List.nil_append, List.append_nil] using Rewrites.rule hp [] []
  exact .single hstep

/-- One step of a leftmost derivation: the rule is applied to the first nonterminal. -/
inductive RewritesFirst (g : Grammar) (p : Production) : List String → List String → Prop where
  | rule (hp : p ∈ g.productions) {before : List String}
      (hbefore : ∀ s ∈ before, s ∉ g.nonterminals) (after : List String) :
      RewritesFirst g p (before ++ p.lhs :: after) (before ++ (p.word ++ after))

/-- A leftmost derivation from a string, with the rules that are applied, in their order. -/
inductive Leftmost (g : Grammar) (form : List String) :
    List Production → List String → Prop where
  | refl : Leftmost g form [] form
  | tail {ps : List Production} {p : Production} {a b : List String}
      (before : Leftmost g form ps a) (step : g.RewritesFirst p a b) :
      Leftmost g form (ps ++ [p]) b

theorem RewritesFirst.rewrites {p : Production} {a b : List String}
    (h : g.RewritesFirst p a b) : g.Rewrites a b := by
  cases h with
  | rule hp _ after => exact .rule hp _ after

theorem Leftmost.derives {form a : List String} {ps : List Production}
    (h : g.Leftmost form ps a) : g.Derives form a := by
  induction h with
  | refl => exact .refl
  | tail _ step ih => exact ih.tail step.rewrites

/-! ## Trees -/

/-- A string of symbols, each with a derivation tree on it, and the terminals at the leaves. -/
inductive Yields (g : Grammar) : List String → List String → Prop where
  | nil : Yields g [] []
  | terminal {s : String} {form word : List String} (hs : s ∉ g.nonterminals)
      (rest : Yields g form word) : Yields g (s :: form) (s :: word)
  | rule {p : Production} {form u v : List String} (hp : p ∈ g.productions)
      (below : Yields g p.word u) (rest : Yields g form v) : Yields g (p.lhs :: form) (u ++ v)

/-- The leaves of trees are terminals. -/
theorem Yields.notMem {form word : List String} (h : g.Yields form word) :
    ∀ s ∈ word, s ∉ g.nonterminals := by
  induction h with
  | nil => simp
  | terminal hs _ ih =>
    intro s hmem
    rcases List.mem_cons.mp hmem with rfl | hmem
    · exact hs
    · exact ih s hmem
  | rule _ _ _ ihu ihv =>
    intro s hmem
    rcases List.mem_append.mp hmem with hmem | hmem
    · exact ihu s hmem
    · exact ihv s hmem

/-- Terminals are trees of their own. -/
theorem yields_self {word : List String} (h : ∀ s ∈ word, s ∉ g.nonterminals) :
    g.Yields word word := by
  induction word with
  | nil => exact .nil
  | cons s rest ih =>
    have hrest : g.Yields rest rest := ih fun t ht => h t (List.mem_cons_of_mem s ht)
    exact .terminal (h s List.mem_cons_self) hrest

theorem Yields.append {a b u v : List String} (ha : g.Yields a u) (hb : g.Yields b v) :
    g.Yields (a ++ b) (u ++ v) := by
  induction ha with
  | nil => exact hb
  | terminal hs _ ih => exact .terminal hs ih
  | rule hp below _ _ ih =>
    rw [List.append_assoc]
    exact .rule hp below ih

/-- The trees on a string in two parts are trees on the parts. -/
theorem yields_append {a b word : List String} :
    g.Yields (a ++ b) word ↔ ∃ u v, word = u ++ v ∧ g.Yields a u ∧ g.Yields b v := by
  constructor
  · intro h
    -- the word is cut where the trees on the first part end
    induction a generalizing word with
    | nil => exact ⟨[], word, rfl, .nil, h⟩
    | cons s a ih =>
      cases h with
      | terminal hs rest =>
        rcases ih rest with ⟨u, v, rfl, hu, hv⟩
        exact ⟨s :: u, v, rfl, .terminal hs hu, hv⟩
      | rule hp below rest =>
        rcases ih rest with ⟨u, v, rfl, hu, hv⟩
        exact ⟨_ ++ u, v, (List.append_assoc ..).symm, .rule hp below hu, hv⟩
  · rintro ⟨u, v, rfl, hu, hv⟩
    exact hu.append hv

theorem Yields.derives {form word : List String} (h : g.Yields form word) :
    g.Derives form word := by
  induction h with
  | nil => exact .refl
  | @terminal s form word _ _ ih =>
    have hkeep : g.Derives [s] [s] := .refl
    exact hkeep.append ih
  | rule hp _ _ ihu ihv =>
    have hbelow := (derives_rule hp).trans ihu
    exact Derives.append hbelow ihv

/-- A step back: trees on what a rule writes are one tree on its left side. -/
theorem Rewrites.yields {a b word : List String} (h : g.Rewrites a b) (hb : g.Yields b word) :
    g.Yields a word := by
  cases h with
  | rule hp before after =>
    rcases yields_append.mp hb with ⟨u, v, rfl, hu, hv⟩
    rcases yields_append.mp hv with ⟨x, y, rfl, hx, hy⟩
    exact hu.append (.rule hp hx hy)

theorem Derives.yields {form word : List String} (h : g.Derives form word)
    (hword : ∀ s ∈ word, s ∉ g.nonterminals) : g.Yields form word := by
  -- backwards from the word, which is its own tree; each step joins trees under a left side
  induction h using Relation.ReflTransGen.head_induction_on with
  | refl => exact yields_self hword
  | head hstep _ ih => exact hstep.yields ih

/-- A grammar generates the strings under the trees on its start symbol. -/
theorem generates_iff_yields {word : List String} :
    g.Generates word ↔ g.Yields [g.start] word := by
  constructor
  · rintro ⟨hword, h⟩
    exact h.yields hword
  · intro h
    exact ⟨h.notMem, h.derives⟩

/-! ## Empty strings and first terminals -/

/-- Every symbol of the string can become empty. -/
inductive Vanishes (g : Grammar) : List String → Prop where
  | nil : Vanishes g []
  | rule {p : Production} {form : List String} (hp : p ∈ g.productions)
      (below : Vanishes g p.word) (rest : Vanishes g form) : Vanishes g (p.lhs :: form)

/-- The string can start with the terminal, after symbols that become empty. -/
inductive Opens (g : Grammar) (t : String) : List String → Prop where
  | terminal (ht : t ∉ g.nonterminals) (form : List String) : Opens g t (t :: form)
  | rule {p : Production} (hp : p ∈ g.productions) (below : Opens g t p.word)
      (form : List String) : Opens g t (p.lhs :: form)
  | skip {s : String} {form : List String} (gone : Vanishes g [s]) (rest : Opens g t form) :
      Opens g t (s :: form)

theorem Yields.vanishes {form word : List String} (h : g.Yields form word) (hword : word = []) :
    g.Vanishes form := by
  induction h with
  | nil => exact .nil
  | terminal => cases hword
  | rule hp _ _ ihu ihv =>
    rcases List.append_eq_nil_iff.mp hword with ⟨hu, hv⟩
    exact .rule hp (ihu hu) (ihv hv)

theorem Yields.opens {form word : List String} (h : g.Yields form word) {t : String}
    {rest : List String} (hword : word = t :: rest) : g.Opens t form := by
  induction h generalizing rest with
  | nil => cases hword
  | terminal hs =>
    cases hword
    exact .terminal hs _
  | rule hp below _ ihu ihv =>
    -- the first tree has no leaves, or the word starts with one of them
    rcases List.append_eq_cons_iff.mp hword with ⟨hu, hv⟩ | ⟨tail, hu, _⟩
    · exact .skip (.rule hp (below.vanishes hu) .nil) (ihv hv)
    · exact .rule hp (ihu hu) _

/-- The first terminal of a string is a symbol of one of the rules, or of the string. -/
theorem Opens.mem {t : String} {form : List String} (h : g.Opens t form) :
    t ∈ form ∨ ∃ p ∈ g.productions, t ∈ p.word := by
  induction h with
  | terminal => exact .inl List.mem_cons_self
  -- the terminal comes from what the rule writes, so some rule has it
  | rule hp _ _ ih =>
    rcases ih with ih | ih
    · exact .inr ⟨_, hp, ih⟩
    · exact .inr ih
  | skip _ _ ih =>
    rcases ih with ih | ih
    · exact .inl (List.mem_cons_of_mem _ ih)
    · exact .inr ih

theorem Opens.ne_epsilon {t : String} {form : List String} (h : g.Opens t form)
    (hform : epsilon ∉ form) : t ≠ epsilon := by
  rintro rfl
  rcases h.mem with hmem | ⟨p, _, hmem⟩
  · exact hform hmem
  · exact epsilon_notMem_word p hmem

theorem Opens.notMem {t : String} {form : List String} (h : g.Opens t form) :
    t ∉ g.nonterminals := by
  induction h with
  | terminal ht => exact ht
  | rule _ _ _ ih => exact ih
  | skip _ _ ih => exact ih

end Grammar

end PrintfLint
