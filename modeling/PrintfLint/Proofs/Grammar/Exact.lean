import PrintfLint.Proofs.Grammar.Follow

/-!
# PrintfLint.Proofs.Grammar.Exact — FIRST and FOLLOW against derivations

* `vanishes_iff_derives`, `opens_iff_derives` — to vanish and to start with a terminal, as facts
  about derivations;
* `first_exact` — the FIRST set of a nonterminal holds what its derivations can start with;
* `Grammar.Ended` — what is asked of a grammar so that FOLLOW makes sense;
* `Grammar.Precedes` — a symbol can come directly after a nonterminal;
* `Grammar.Noted` — every symbol that a string shows behind a nonterminal is in its FOLLOW set;
* `follow_exact` — the FOLLOW set of a nonterminal holds what can come directly after it.

No rule has to be reachable or of use: a nonterminal may be its own first symbol, stand for nothing
but itself, or never become a string of terminals.
-/

namespace PrintfLint.Grammar

variable {g : Grammar}

/-! ## Strings in parts -/

theorem vanishes_append {a b : List String} :
    g.Vanishes (a ++ b) ↔ g.Vanishes a ∧ g.Vanishes b := by
  constructor
  · intro h
    -- by the first part, each symbol of which has a tree of its own
    induction a with
    | nil => exact ⟨.nil, h⟩
    | cons s a ih =>
      cases h with
      | rule hp below rest =>
        rcases ih rest with ⟨ha, hb⟩
        exact ⟨.rule hp below ha, hb⟩
  · rintro ⟨ha, hb⟩
    exact ha.append hb

/-- A string starts with what its first part starts with, or with what its second part starts with
once the first is gone. -/
theorem opens_append {t : String} {a b : List String} :
    g.Opens t (a ++ b) ↔ g.Opens t a ∨ (g.Vanishes a ∧ g.Opens t b) := by
  constructor
  · intro h
    -- by the first part: what starts the whole starts a symbol of it, or all of it vanishes
    induction a with
    | nil => exact .inr ⟨.nil, h⟩
    | cons s a ih =>
      cases h with
      | terminal ht => exact .inl (.terminal ht a)
      | rule hp below => exact .inl (.rule hp below a)
      | skip gone rest =>
        rcases ih rest with ha | ⟨ha, hb⟩
        · exact .inl (.skip gone ha)
        · exact .inr ⟨gone.append ha, hb⟩
  · rintro (ha | ⟨ha, hb⟩)
    · exact ha.append b
    · induction a with
      | nil => exact hb
      | cons s a ih =>
        -- a terminal does not vanish, so the symbol in front is one that a rule makes empty
        cases ha with
        | rule hp below rest => exact .skip (.rule hp below .nil) (ih rest)

/-! ## Derivations -/

/-- Derivations lead from strings that can vanish, and only from them, to the empty string. -/
theorem vanishes_iff_derives {form : List String} : g.Vanishes form ↔ g.Derives form [] := by
  constructor
  · intro h
    induction h with
    | nil => exact .refl
    | rule hp _ _ ihbelow ihrest =>
      have hfirst := (derives_rule hp).trans ihbelow
      exact Derives.append hfirst ihrest
  · intro h
    have htree : g.Yields form [] := h.yields (by simp)
    exact htree.vanishes rfl

theorem Rewrites.opens {a b : List String} (h : g.Rewrites a b) {t : String}
    (hb : g.Opens t b) : g.Opens t a := by
  cases h with
  | @rule p hp before after =>
    -- the terminal comes from before the left side, from what its rule writes, or from behind it
    rcases opens_append.mp hb with hbefore | ⟨hgone, hrest⟩
    · exact hbefore.append _
    · refine opens_append.mpr (.inr ⟨hgone, ?_⟩)
      rcases opens_append.mp hrest with hword | ⟨hword, hafter⟩
      · exact .rule hp hword after
      · exact .skip (.rule hp hword .nil) hafter

theorem Rewrites.vanishes {a b : List String} (h : g.Rewrites a b) (hb : g.Vanishes b) :
    g.Vanishes a := by
  rw [vanishes_iff_derives] at hb ⊢
  exact .head h hb

/-- Derivations lead from strings that can start with a terminal, and only from them, to strings
that do. -/
theorem opens_iff_derives {t : String} (ht : t ∉ g.nonterminals) {form : List String} :
    g.Opens t form ↔ ∃ rest, g.Derives form (t :: rest) := by
  constructor
  · intro h
    -- along what starts the string, a derivation that puts the terminal in front
    induction h with
    | terminal _ form => exact ⟨form, .refl⟩
    | rule hp _ form ih =>
      rcases ih with ⟨rest, ih⟩
      have hfirst := (derives_rule hp).trans ih
      exact ⟨rest ++ form, Derives.append hfirst .refl⟩
    | skip gone _ ih =>
      rcases ih with ⟨rest, ih⟩
      have hgone := vanishes_iff_derives.mp gone
      exact ⟨rest, hgone.append ih⟩
  · rintro ⟨rest, h⟩
    -- backwards along the derivation, whose last string has the terminal in front
    induction h using Relation.ReflTransGen.head_induction_on with
    | refl => exact .terminal ht rest
    | head hstep _ ih => exact hstep.opens ih

/-! ## FIRST -/

theorem epsilon_mem_first_iff (hg : g.Declared) {n : String} :
    epsilon ∈ g.first.of n ↔ g.Vanishes [n] := by
  constructor
  · intro h
    exact starts_epsilon.mp (g.soundFirst_first n epsilon h)
  · intro h
    exact (epsilon_mem_first_of hg h).2

theorem mem_first_iff (hg : g.Declared) {n : String} (hn : n ∈ g.nonterminals) {t : String}
    (hne : t ≠ epsilon) : t ∈ g.first.of n ↔ g.Opens t [n] := by
  constructor
  · intro h
    exact (starts_ne hne).mp (g.soundFirst_first n t h)
  · intro h
    -- FIRST of the string `n` is the set of `n`, but for `ε`
    have hmem := h.mem_firstOf hg hne
    rcases (mem_firstOf_nonterminal hn (hg.ne_epsilon hn)).mp hmem with ⟨hmem, _⟩ | ⟨_, hmem⟩
    · exact hmem
    · exact absurd (List.mem_singleton.mp hmem) hne

/-- FIRST is exact. The rounds that compute it come to an end; then the set of a nonterminal holds a
terminal if a derivation leads from the nonterminal to a string that starts with it, holds `ε` if
one leads to the empty string, and holds nothing else. -/
theorem first_exact (hg : g.Declared) :
    Settles g.roundFirst (.empty g.nonterminals) g.first ∧
    g.first.keys = g.nonterminals ∧
    ∀ n ∈ g.nonterminals,
      (∀ t, t ∉ g.nonterminals → t ≠ epsilon →
        (t ∈ g.first.of n ↔ ∃ rest, g.Derives [n] (t :: rest))) ∧
      (epsilon ∈ g.first.of n ↔ g.Derives [n] []) ∧
      ∀ m ∈ g.nonterminals, m ∉ g.first.of n := by
  refine ⟨g.first_settles, g.first_within.keys_eq, ?_⟩
  intro n hn
  refine ⟨?_, ?_, ?_⟩
  · intro t ht hne
    rw [mem_first_iff hg hn hne, opens_iff_derives ht]
  · rw [epsilon_mem_first_iff hg, vanishes_iff_derives]
  · intro m hm hmem
    -- what a string can start with is never a nonterminal
    have hopens := (mem_first_iff hg hn (hg.ne_epsilon hm)).mp hmem
    exact hopens.notMem hm

/-- A grammar with left recursion, a cycle of nonterminals, an empty symbol inside a rule, and a
nonterminal that the start symbol does not lead to. -/
def tangled : Grammar where
  start := "S"
  nonterminals := ["S", "A", "B", "C"]
  productions := [⟨"S", ["S", "A", "y"]⟩, ⟨"S", []⟩, ⟨"A", ["S"]⟩, ⟨"A", ["B", epsilon, "z"]⟩,
    ⟨"B", ["A"]⟩, ⟨"C", ["A", "B", "w"]⟩]

/-- What two of its nonterminals can start with, and whether they can vanish. -/
theorem first_tangled : tangled.Declared ∧
    Settles tangled.roundFirst (.empty ["S", "A", "B", "C"]) tangled.first ∧
    (∃ rest, tangled.Derives ["B"] ("y" :: rest)) ∧ tangled.Derives ["B"] [] ∧
    (¬ ∃ rest, tangled.Derives ["B"] ("w" :: rest)) ∧ ¬ tangled.Derives ["C"] [] := by
  have hg : tangled.Declared := {
    lhs_mem := by decide
    epsilon_notMem := by decide }
  rcases first_exact hg with ⟨hsettles, _, hsets⟩
  rcases hsets "B" (by decide) with ⟨hB, hBvanish, _⟩
  rcases hsets "C" (by decide) with ⟨_, hCvanish, _⟩
  refine ⟨hg, hsettles, ?_, ?_, ?_, ?_⟩
  · -- whether the symbols are in the computed sets is evaluated; the derivations come from the
    -- theorem
    exact (hB "y" (by decide) (by decide)).mp (by decide +kernel)
  · exact hBvanish.mp (by decide +kernel)
  · rw [← hB "w" (by decide) (by decide)]
    decide +kernel
  · rw [← hCvanish]
    decide +kernel

/-! ## What can come after a nonterminal -/

/-- The start symbol and the left sides are nonterminals, the two special symbols are none, and the
end mark occurs in no rule. -/
structure Ended (g : Grammar) : Prop extends Declared g where
  start_mem : g.start ∈ g.nonterminals
  endMark_notMem : endMark ∉ g.nonterminals
  endMark_notMem_rhs : ∀ p ∈ g.productions, endMark ∉ p.rhs

/-- The symbol can come directly after the nonterminal: in a string that some nonterminal derives,
or, for the end mark, at the end of one that the start symbol derives. -/
def Precedes (g : Grammar) (n t : String) : Prop :=
  if t = endMark then ∃ before, g.Derives [g.start] (before ++ [n])
  else t ≠ epsilon ∧ ∃ m ∈ g.nonterminals, ∃ before after,
    g.Derives [m] (before ++ n :: t :: after)

theorem precedes_endMark {n : String} :
    g.Precedes n endMark ↔ ∃ before, g.Derives [g.start] (before ++ [n]) := by
  simp [Precedes]

theorem precedes_ne {n t : String} (h : t ≠ endMark) :
    g.Precedes n t ↔ t ≠ epsilon ∧ ∃ m ∈ g.nonterminals, ∃ before after,
      g.Derives [m] (before ++ n :: t :: after) := by
  simp [Precedes, h]

theorem Precedes.ne_epsilon {n t : String} (h : g.Precedes n t) : t ≠ epsilon := by
  by_cases hend : t = endMark
  · rw [hend]
    decide
  · exact ((precedes_ne hend).mp h).1

/-- No string opens with the end mark unless it holds it. -/
theorem Ended.ne_endMark (hg : g.Ended) {form : List String} (hform : endMark ∉ form) {t : String}
    (h : g.Opens t form) : t ≠ endMark := by
  rintro rfl
  rcases h.mem with hmem | ⟨p, hp, hmem⟩
  · exact hform hmem
  · exact hg.endMark_notMem_rhs p hp (mem_spell.mp hmem).1

section

variable {p : Production} {before after : List String} {n : String}

/-- Behind a place in a rule comes what the rest of the rule can start with. -/
theorem precedes_of_opens (hg : g.Ended) (hp : p ∈ g.productions)
    (hword : p.word = before ++ n :: after) {t : String} (hne : t ≠ epsilon)
    (ht : g.Opens t after) : g.Precedes n t := by
  -- the end mark is in no rule, so the symbol is one that stands in a string and not the end
  have hmark : endMark ∉ after := by
    intro hmem
    have hmem : endMark ∈ p.word := by
      rw [hword]
      simp [hmem]
    exact hg.endMark_notMem_rhs p hp (mem_spell.mp hmem).1
  rcases (opens_iff_derives ht.notMem).mp ht with ⟨rest, hrest⟩
  have hrule : g.Derives [p.lhs] (before ++ n :: after) := by
    rw [← hword]
    exact derives_rule hp
  -- the rest of the rule is rewritten where it stands until the terminal is in front of it
  have hopen : g.Derives (before ++ n :: after) (before ++ n :: t :: rest) := by
    simpa using hrest.context (before ++ [n]) []
  rw [precedes_ne (hg.ne_endMark hmark ht)]
  exact ⟨hne, p.lhs, hg.lhs_mem p hp, before, rest, hrule.trans hopen⟩

/-- If the rest of the rule can vanish, what comes behind the left side comes there too. -/
theorem precedes_of_vanishes (hp : p ∈ g.productions) (hword : p.word = before ++ n :: after)
    (hafter : g.Vanishes after) {t : String} (ht : g.Precedes p.lhs t) : g.Precedes n t := by
  have hrule : g.Derives [p.lhs] (before ++ n :: after) := by
    rw [← hword]
    exact derives_rule hp
  have hgone : g.Derives (before ++ n :: after) (before ++ [n]) := by
    simpa using (vanishes_iff_derives.mp hafter).context (before ++ [n]) []
  -- the rule is applied to the left side where it stands
  have happly : ∀ a b, g.Derives (a ++ p.lhs :: b) ((a ++ before) ++ n :: b) := by
    intro a b
    simpa using Derives.context (hrule.trans hgone) a b
  by_cases hend : t = endMark
  · rw [hend, precedes_endMark] at ht ⊢
    rcases ht with ⟨a, ht⟩
    exact ⟨a ++ before, ht.trans (happly a [])⟩
  · rw [precedes_ne hend] at ht ⊢
    rcases ht with ⟨hne, m, hm, a, b, ht⟩
    exact ⟨hne, m, hm, a ++ before, b, ht.trans (happly a (t :: b))⟩

end

/-- Every symbol in the set of a nonterminal is one that can come after it. -/
def SoundFollow (g : Grammar) (follow : SymbolSets) : Prop :=
  ∀ n t, t ∈ follow.of n → g.Precedes n t

/-- What one place of a rule adds to the sets is sound. -/
theorem SoundFollow.place (hg : g.Ended) {follow : SymbolSets} (h : g.SoundFollow follow)
    {p : Production} (hp : p ∈ g.productions) {before rest : List String} {s : String}
    (hrhs : p.rhs = before ++ s :: rest) (hs : s ∈ g.nonterminals) :
    g.SoundFollow (follow.add s (g.successors g.first p.lhs rest follow)) := by
  -- the place is the same in the word of the rule, where no epsilon counts
  have hword : p.word = spell before ++ s :: spell rest := by
    rw [Production.word, hrhs, spell, List.filter_append, ← spell, ← spell,
      spell_cons (hg.ne_epsilon hs)]
  have hspelled : epsilon ∉ spell rest := fun hmem => (mem_spell.mp hmem).2 rfl
  intro n t ht
  rcases SymbolSets.mem_of_add.mp ht with ht | ⟨rfl, _, ht⟩
  · exact h n t ht
  · rw [mem_successors, ← firstOf_spell] at ht
    rcases ht with ⟨ht, hne⟩ | ⟨hgone, ht⟩
    · -- a first symbol of the rest, or, when the rest vanishes, what follows the whole rule
      exact precedes_of_opens hg hp hword hne ((mem_firstOf hg.toDeclared hspelled hne).mp ht)
    · have hvanish := (epsilon_mem_firstOf hg.toDeclared hspelled).mp hgone
      exact precedes_of_vanishes hp hword hvanish (h p.lhs t ht)

theorem soundFollow_follows (hg : g.Ended) : g.SoundFollow g.follows := by
  have hround : ∀ follow, g.SoundFollow follow →
      g.SoundFollow (g.roundFollow g.first follow) := by
    intro follow h
    refine roundFollow_inv g.SoundFollow ?_ h
    intro p hp before s rest follow hrhs hs h
    exact h.place hg hp hrhs hs
  refine settle_inv g.SoundFollow hround _ ?_
  -- before the first round there is the end mark behind the start symbol, and no other symbol
  intro n t ht
  rcases SymbolSets.mem_of_add.mp ht with ht | ⟨rfl, _, ht⟩
  · rw [SymbolSets.of_empty] at ht
    cases ht
  · rw [List.mem_singleton.mp ht, precedes_endMark]
    exact ⟨[], .refl⟩

/-! ## Strings whose nonterminals know what comes after them -/

/-- The string shows the symbol to what stands before it: it can start with the symbol, or it can
vanish and the symbol comes after it. -/
def Shows (g : Grammar) (t : String) (behind : Prop) (form : List String) : Prop :=
  g.Opens t form ∨ (g.Vanishes form ∧ behind)

theorem shows_append {t : String} {behind : Prop} {a b : List String} :
    g.Shows t behind (a ++ b) ↔ g.Opens t a ∨ (g.Vanishes a ∧ g.Shows t behind b) := by
  rw [Shows, Shows, opens_append, vanishes_append]
  tauto

theorem Rewrites.shows {a b : List String} (h : g.Rewrites a b) {t : String} {behind : Prop}
    (hb : g.Shows t behind b) : g.Shows t behind a := by
  rcases hb with hb | ⟨hb, hbehind⟩
  · exact .inl (h.opens hb)
  · exact .inr ⟨h.vanishes hb, hbehind⟩

/-- The symbol is in the set of each nonterminal of the string that has it shown. -/
def Noted (g : Grammar) (t : String) (behind : Prop) (form : List String) : Prop :=
  ∀ before n after, form = before ++ n :: after → n ∈ g.nonterminals →
    g.Shows t behind after → t ∈ g.follows.of n

section

variable {t : String} {behind : Prop}

/-- A derivation step keeps what is noted. -/
theorem Noted.rewrites (hg : g.Declared) (hne : t ≠ epsilon) {a b : List String}
    (ha : g.Noted t behind a) (h : g.Rewrites a b) : g.Noted t behind b := by
  cases h with
  | @rule p hp left right =>
    intro before n after heq hn hshows
    rcases append_eq_append_cons heq with ⟨rest, rfl, rfl⟩ | ⟨rest, rfl, hinner⟩
    · -- the nonterminal stood before the left side, and what it is shown was there before the step
      have hstep : g.Rewrites (rest ++ p.lhs :: right) (rest ++ (p.word ++ right)) :=
        .rule hp rest right
      exact ha before n (rest ++ p.lhs :: right) (by simp) hn (hstep.shows hshows)
    · rcases append_eq_append_cons hinner with ⟨rest', hword, rfl⟩ | ⟨rest', rfl, rfl⟩
      · -- the rule has written it: the rest of the rule shows the symbol, or what comes behind does
        rcases shows_append.mp hshows with hopens | ⟨hgone, hright⟩
        · exact mem_follows_of_opens hg hp hword hn hne hopens
        · have hlhs := ha left p.lhs right rfl (hg.lhs_mem p hp) hright
          exact mem_follows_of_vanishes hg hp hword hn hgone hlhs
      · exact ha (left ++ p.lhs :: rest') n after (by simp) hn hshows

theorem Noted.derives (hg : g.Declared) (hne : t ≠ epsilon) {a b : List String}
    (ha : g.Noted t behind a) (h : g.Derives a b) : g.Noted t behind b := by
  induction h with
  | refl => exact ha
  | tail _ hstep ih => exact ih.rewrites hg hne hstep

/-- A single nonterminal is shown only what comes after the string. -/
theorem noted_singleton {n : String} (h : behind → t ∈ g.follows.of n) :
    g.Noted t behind [n] := by
  intro before m after heq _ hshows
  rcases eq_of_singleton_eq heq with ⟨rfl, rfl⟩
  rcases hshows with hopens | ⟨_, hbehind⟩
  · cases hopens
  · exact h hbehind

end

/-- What can come after a nonterminal is in its set. -/
theorem Precedes.mem_follows (hg : g.Ended) {n t : String} (hn : n ∈ g.nonterminals)
    (ht : t ∉ g.nonterminals) (h : g.Precedes n t) : t ∈ g.follows.of n := by
  have hne : t ≠ epsilon := h.ne_epsilon
  -- the end mark comes after the start symbol, and a terminal out of a string where it stands
  by_cases hend : t = endMark
  · subst hend
    rcases precedes_endMark.mp h with ⟨before, h⟩
    have hstart : g.Noted endMark True [g.start] :=
      noted_singleton fun _ => endMark_mem_follows hg.start_mem
    exact hstart.derives hg.toDeclared hne h before n [] rfl hn (.inr ⟨.nil, trivial⟩)
  · rcases (precedes_ne hend).mp h with ⟨_, m, _, before, after, h⟩
    have hstart : g.Noted t False [m] := noted_singleton False.elim
    have hshows : g.Shows t False (t :: after) := .inl (.terminal ht after)
    exact hstart.derives hg.toDeclared hne h before n (t :: after) rfl hn hshows

/-! ## FOLLOW -/

/-- FOLLOW is exact. The rounds that compute it come to an end; then the set of a nonterminal holds
a terminal if some nonterminal derives a string in which the terminal stands directly after it,
holds the end mark if the start symbol derives a string with the nonterminal at its end, and never
holds `ε`. -/
theorem follow_exact (hg : g.Ended) :
    Settles (g.roundFollow g.first) ((SymbolSets.empty g.nonterminals).add g.start [endMark])
      (g.follow g.first) ∧
    (g.follow g.first).keys = g.nonterminals ∧
    ∀ n ∈ g.nonterminals,
      (∀ t, t ∉ g.nonterminals → t ≠ epsilon → t ≠ endMark →
        (t ∈ (g.follow g.first).of n ↔
          ∃ m ∈ g.nonterminals, ∃ before after, g.Derives [m] (before ++ n :: t :: after))) ∧
      (endMark ∈ (g.follow g.first).of n ↔ ∃ before, g.Derives [g.start] (before ++ [n])) ∧
      epsilon ∉ (g.follow g.first).of n := by
  refine ⟨g.follows_settles, g.follows_within.keys_eq, ?_⟩
  intro n hn
  -- the computed sets hold what comes after the nonterminal: by soundness of the rounds and since
  -- the rounds have settled
  have hiff : ∀ t, t ∉ g.nonterminals → (t ∈ (g.follow g.first).of n ↔ g.Precedes n t) := by
    intro t ht
    exact ⟨fun hmem => soundFollow_follows hg n t hmem, fun h => h.mem_follows hg hn ht⟩
  refine ⟨?_, ?_, ?_⟩
  · intro t ht hne hend
    rw [hiff t ht, precedes_ne hend]
    exact and_iff_right hne
  · rw [hiff endMark hg.endMark_notMem, precedes_endMark]
  · intro hmem
    exact (soundFollow_follows hg n epsilon hmem).ne_epsilon rfl

/-- A terminal comes after the start symbol where another nonterminal has vanished between them; the
string before the end mark never ends in `A`. -/
theorem follow_tangled : tangled.Ended ∧
    Settles (tangled.roundFollow tangled.first)
      ((SymbolSets.empty ["S", "A", "B", "C"]).add "S" [endMark])
      (tangled.follow tangled.first) ∧
    (∃ m ∈ tangled.nonterminals, ∃ before after,
      tangled.Derives [m] (before ++ "S" :: "w" :: after)) ∧
    ¬ ∃ before, tangled.Derives ["S"] (before ++ ["A"]) := by
  have hg : tangled.Ended := {
    lhs_mem := by decide
    epsilon_notMem := by decide
    start_mem := by decide
    endMark_notMem := by decide
    endMark_notMem_rhs := by decide }
  rcases follow_exact hg with ⟨hsettles, _, hsets⟩
  rcases hsets "S" (by decide) with ⟨hS, _, _⟩
  rcases hsets "A" (by decide) with ⟨_, hAend, _⟩
  refine ⟨hg, hsettles, ?_, ?_⟩
  · -- as for FIRST, only membership is evaluated
    exact (hS "w" (by decide) (by decide) (by decide)).mp (by decide +kernel)
  · rw [show "S" = tangled.start from rfl, ← hAend]
    decide +kernel

end PrintfLint.Grammar
