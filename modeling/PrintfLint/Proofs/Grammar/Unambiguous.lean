import PrintfLint.Proofs.Grammar.Exact
import PrintfLint.Proofs.Grammar.Table

/-!
# PrintfLint.Proofs.Grammar.Unambiguous — a grammar without conflicts is unambiguous

* `RewritesFirst.unique`, `leftmost_cons_iff` — leftmost derivations, followed from their start;
* `exists_leftmost_of_yields` — every tree has a leftmost derivation;
* `Grammar.Placed` — the FOLLOW sets know what stands behind the nonterminals of a string;
* `asks_of_placed` — so the next symbol of the word asks for the rule that a derivation applies;
* `leftmost_unique` — without conflicts that leaves no choice: a terminal string has at most one
  leftmost derivation from the start symbol.

Which rule comes next is settled where two rules would make different strings and also where both
make the first nonterminal vanish. In the second case it is the FOLLOW set that the rules share.
-/

namespace PrintfLint

namespace Grammar

variable {g : Grammar}

/-! ## Leftmost derivations from their start -/

/-- A string has one first nonterminal. -/
theorem first_nonterminal_unique {before before' after after' : List String} {n n' : String}
    (hbefore : ∀ s ∈ before, s ∉ g.nonterminals) (hbefore' : ∀ s ∈ before', s ∉ g.nonterminals)
    (hn : n ∈ g.nonterminals) (hn' : n' ∈ g.nonterminals)
    (h : before ++ n :: after = before' ++ n' :: after') :
    before = before' ∧ n = n' ∧ after = after' := by
  rcases append_eq_append_cons h with ⟨rest, rfl, _⟩ | ⟨rest, rfl, hrest⟩
  · -- a nonterminal cannot stand among the terminals in front of the other one
    exact absurd hn' (hbefore n' (by simp))
  · cases rest with
    | nil => simpa using hrest
    | cons m rest =>
      obtain ⟨rfl, _⟩ : n = m ∧ _ := by simpa using hrest
      exact absurd hn (hbefore' n (by simp))

/-- A step replaces the first nonterminal, and leaves the terminals before it. -/
theorem RewritesFirst.exists_split (hg : g.Declared) {p : Production} {a b : List String}
    (h : g.RewritesFirst p a b) :
    ∃ before after, a = before ++ p.lhs :: after ∧ b = before ++ (p.word ++ after) ∧
      (∀ s ∈ before, s ∉ g.nonterminals) ∧ p.lhs ∈ g.nonterminals ∧ p ∈ g.productions := by
  cases h with
  | @rule hp before hbefore after =>
    exact ⟨before, after, rfl, rfl, hbefore, hg.lhs_mem p hp, hp⟩

/-- A rule can be applied to the first nonterminal in one way. -/
theorem RewritesFirst.unique (hg : g.Declared) {p : Production} {a b c : List String}
    (h : g.RewritesFirst p a b) (h' : g.RewritesFirst p a c) : b = c := by
  rcases h.exists_split hg with ⟨before, after, rfl, rfl, hbefore, hn, _⟩
  rcases h'.exists_split hg with ⟨before', after', ha, rfl, hbefore', _, _⟩
  obtain ⟨rfl, _, rfl⟩ := first_nonterminal_unique hbefore hbefore' hn hn ha
  rfl

theorem RewritesFirst.append_right {p : Production} {a b : List String}
    (h : g.RewritesFirst p a b) (c : List String) : g.RewritesFirst p (a ++ c) (b ++ c) := by
  cases h with
  | @rule hp before hbefore after =>
    have hstep := RewritesFirst.rule hp hbefore (after ++ c)
    simpa only [List.append_assoc, List.cons_append] using hstep

theorem leftmost_nil_iff {a b : List String} : g.Leftmost a [] b ↔ b = a := by
  constructor
  · intro h
    generalize hps : ([] : List Production) = ps at h
    cases h with
    | refl => rfl
    | tail => simp at hps
  · rintro rfl
    exact .refl

theorem Leftmost.cons {p : Production} {ps : List Production} {a b c : List String}
    (step : g.RewritesFirst p a b) (rest : g.Leftmost b ps c) : g.Leftmost a (p :: ps) c := by
  induction rest with
  | refl => exact .tail .refl step
  | tail _ last ih => exact .tail ih last

/-- A leftmost derivation starts with a step by its first rule. -/
theorem leftmost_cons_iff {p : Production} {ps : List Production} {a c : List String} :
    g.Leftmost a (p :: ps) c ↔ ∃ b, g.RewritesFirst p a b ∧ g.Leftmost b ps c := by
  constructor
  · intro h
    -- the derivation grows at its end, so the first step comes up at the bottom of the induction
    generalize hps : p :: ps = qs at h
    induction h generalizing ps with
    | refl => cases hps
    | @tail qs q b c before step ih =>
      -- there is no step before the last one, or the first step is one of those before
      cases qs with
      | nil =>
        obtain ⟨rfl, rfl⟩ : p = q ∧ ps = [] := by simpa using hps
        rw [leftmost_nil_iff.mp before] at step
        exact ⟨c, step, .refl⟩
      | cons _ qs =>
        obtain ⟨rfl, rfl⟩ : p = _ ∧ ps = qs ++ [q] := by simpa using hps
        rcases ih rfl with ⟨d, hfirst, hrest⟩
        exact ⟨d, hfirst, .tail hrest step⟩
  · rintro ⟨b, step, rest⟩
    exact rest.cons step

theorem Leftmost.trans {ps qs : List Production} {a b c : List String} (h : g.Leftmost a ps b)
    (h' : g.Leftmost b qs c) : g.Leftmost a (ps ++ qs) c := by
  induction h' with
  | refl => simpa using h
  | tail _ step ih =>
    rw [← List.append_assoc]
    exact .tail ih step

theorem Leftmost.append_right {ps : List Production} {a b : List String} (h : g.Leftmost a ps b)
    (c : List String) : g.Leftmost (a ++ c) ps (b ++ c) := by
  induction h with
  | refl => exact .refl
  | tail _ step ih => exact .tail ih (step.append_right c)

/-- Every tree has a leftmost derivation, also behind terminals that are there already. -/
theorem exists_leftmost_of_yields {form word : List String} (h : g.Yields form word)
    {before : List String} (hbefore : ∀ s ∈ before, s ∉ g.nonterminals) :
    ∃ ps, g.Leftmost (before ++ form) ps (before ++ word) := by
  -- by the tree: terminals join those in front, and a rule is applied first, then what it writes,
  -- and then what stands behind it
  induction h generalizing before with
  | nil => exact ⟨[], .refl⟩
  | @terminal s form word hs _ ih =>
    have hbefore : ∀ t ∈ before ++ [s], t ∉ g.nonterminals := by
      rw [List.forall_mem_append, List.forall_mem_singleton]
      exact ⟨hbefore, hs⟩
    simpa using ih hbefore
  | @rule p form u v hp hbelow _ ihu ihv =>
    have hnext : ∀ t ∈ before ++ u, t ∉ g.nonterminals := by
      rw [List.forall_mem_append]
      exact ⟨hbefore, hbelow.notMem⟩
    rcases ihu hbefore with ⟨ps, hps⟩
    rcases ihv hnext with ⟨qs, hqs⟩
    -- what stands behind stays in place while the word of the rule is derived
    have hmid := hps.append_right form
    rw [List.append_assoc] at hmid
    have hstep := RewritesFirst.rule hp hbefore form
    exact ⟨p :: (ps ++ qs), by simpa using (hmid.trans hqs).cons hstep⟩

/-! ## What the next symbol asks for -/

/-- The string holds no `ε`, and every symbol that it shows to one of its nonterminals is in the
FOLLOW set; at its end it shows the end mark. -/
structure Placed (g : Grammar) (form : List String) : Prop where
  epsilon_notMem : epsilon ∉ form
  noted : ∀ t, t ≠ epsilon → g.Noted t (t = endMark) form

theorem placed_start (hg : g.Declared) (hstart : g.start ∈ g.nonterminals) :
    g.Placed [g.start] where
  epsilon_notMem := by
    rw [List.mem_singleton]
    exact (hg.ne_epsilon hstart).symm
  noted := by
    intro t _
    apply noted_singleton
    rintro rfl
    exact endMark_mem_follows hstart

/-- A derivation step leads to a string of this form again. -/
theorem Placed.rewrites (hg : g.Declared) {a b : List String} (ha : g.Placed a)
    (h : g.Rewrites a b) : g.Placed b where
  epsilon_notMem := by
    cases h with
    | @rule p _ before after =>
      have hnot := ha.epsilon_notMem
      have hword := epsilon_notMem_word p
      simp only [List.mem_append, List.mem_cons, not_or] at hnot ⊢
      exact ⟨hnot.1, hword, hnot.2.2⟩
  noted := fun t hne => (ha.noted t hne).rewrites hg hne h

/-- The next symbol of the word asks for the rule that a derivation applies. -/
theorem asks_of_placed (hg : g.Declared) {p : Production} (hp : p ∈ g.productions)
    {before after word : List String} (hplaced : g.Placed (before ++ p.lhs :: after))
    (htree : g.Yields (p.word ++ after) word) : g.Asks (word.headD endMark) p := by
  have hn := hg.lhs_mem p hp
  rcases yields_append.mp htree with ⟨u, v, rfl, hu, hv⟩
  apply asks_of_yields hu
  -- the word ends with what the rule writes, or goes on with what stands behind it
  cases v with
  | nil =>
    have hend : endMark ≠ epsilon := by decide
    exact hplaced.noted endMark hend before p.lhs after rfl hn (.inr ⟨hv.vanishes rfl, rfl⟩)
  | cons t v =>
    have hafter : epsilon ∉ after := fun hmem => hplaced.epsilon_notMem (by simp [hmem])
    have hopens : g.Opens t after := hv.opens rfl
    exact hplaced.noted t (hopens.ne_epsilon hafter) before p.lhs after rfl hn (.inl hopens)

/-- The terminals before a string stay before the leaves of its trees. -/
theorem Yields.of_terminals (hg : g.Declared) {before form word : List String}
    (hbefore : ∀ s ∈ before, s ∉ g.nonterminals) (h : g.Yields (before ++ form) word) :
    ∃ rest, word = before ++ rest ∧ g.Yields form rest := by
  induction before generalizing word with
  | nil => exact ⟨word, rfl, h⟩
  | cons s before ih =>
    rcases List.forall_mem_cons.mp hbefore with ⟨hs, hbefore⟩
    cases h with
    | terminal _ hrest =>
      rcases ih hbefore hrest with ⟨rest, rfl, hform⟩
      exact ⟨rest, rfl, hform⟩
    -- a rule for this symbol would make it a nonterminal
    | rule hp => exact absurd (hg.lhs_mem _ hp) hs

/-- The rule that a derivation of the word applies is the one in the cell before its next symbol. -/
theorem RewritesFirst.rule?_eq (hg : g.Declared) (hfree : g.analyse.conflicts = [])
    {p : Production} {before after form word : List String} {n : String}
    (hbefore : ∀ s ∈ before, s ∉ g.nonterminals) (hn : n ∈ g.nonterminals)
    (hplaced : g.Placed (before ++ n :: after))
    (step : g.RewritesFirst p (before ++ n :: after) form)
    (htree : g.Yields form (before ++ word)) :
    g.analyse.table.rule? n (word.headD endMark) = some p := by
  rcases step.exists_split hg with ⟨before', after', ha, rfl, hbefore', hlhs, hp⟩
  obtain ⟨rfl, rfl, rfl⟩ := first_nonterminal_unique hbefore hbefore' hn hlhs ha
  rcases htree.of_terminals hg hbefore with ⟨rest, hrest, hform⟩
  rw [List.append_cancel_left hrest]
  exact rule?_of_asks hg hfree hp (asks_of_placed hg hp hplaced hform)

/-! ## One derivation -/

/-- Without conflicts, leftmost derivations of one terminal string are the same. -/
theorem Leftmost.unique (hg : g.Declared) (hfree : g.analyse.conflicts = [])
    {form word : List String} {ps qs : List Production} (hplaced : g.Placed form)
    (hword : ∀ s ∈ word, s ∉ g.nonterminals) (h : g.Leftmost form ps word)
    (h' : g.Leftmost form qs word) : ps = qs := by
  have hdone : ∀ {p : Production} {b : List String}, ¬ g.RewritesFirst p word b := by
    intro p b step
    rcases step.exists_split hg with ⟨before, after, rfl, _, _, hn, _⟩
    exact hword p.lhs (by simp) hn
  -- both are followed from their start: their first steps are by the same rule
  induction ps generalizing form qs with
  | nil =>
    obtain rfl := leftmost_nil_iff.mp h
    cases qs with
    | nil => rfl
    | cons q qs =>
      rcases leftmost_cons_iff.mp h' with ⟨b, step, _⟩
      exact absurd step hdone
  | cons p ps ih =>
    rcases leftmost_cons_iff.mp h with ⟨b, step, hrest⟩
    cases qs with
    | nil =>
      obtain rfl := leftmost_nil_iff.mp h'
      exact absurd step hdone
    | cons q qs =>
      rcases leftmost_cons_iff.mp h' with ⟨c, step', hrest'⟩
      have hnext : g.Placed b := hplaced.rewrites hg step.rewrites
      have htree : g.Yields b word := hrest.derives.yields hword
      have htree' : g.Yields c word := hrest'.derives.yields hword
      rcases step.exists_split hg with ⟨before, after, rfl, rfl, hbefore, hn, _⟩
      rcases htree.of_terminals hg hbefore with ⟨rest, rfl, _⟩
      have hrule := step.rule?_eq hg hfree hbefore hn hplaced htree
      have hrule' := step'.rule?_eq hg hfree hbefore hn hplaced htree'
      rw [hrule] at hrule'
      obtain rfl := Option.some.inj hrule'
      obtain rfl := step.unique hg step'
      rw [ih hnext hrest hrest']

/-- A grammar without conflicts is unambiguous: a terminal string that the start symbol derives has
a leftmost derivation, and no terminal string has two. A derivation is told by its rules, and a rule
that is listed twice is one rule. -/
theorem leftmost_unique (hg : g.Declared) (hstart : g.start ∈ g.nonterminals) :
    ∃ a, g.analyse? = .ok a ∧ (a.conflicts = [] →
      ∀ word : List String, (∀ s ∈ word, s ∉ g.nonterminals) →
        (g.Derives [g.start] word → ∃ ps, g.Leftmost [g.start] ps word) ∧
        ∀ ps qs, g.Leftmost [g.start] ps word → g.Leftmost [g.start] qs word → ps = qs) := by
  refine ⟨g.analyse, analyse?_of_lhs_mem hg.lhs_mem hstart, ?_⟩
  intro hfree word hword
  constructor
  · intro hderives
    -- there are no terminals in front of the start symbol
    have hnone : ∀ s ∈ ([] : List String), s ∉ g.nonterminals := by simp
    exact exists_leftmost_of_yields (hderives.yields hword) hnone
  · intro ps qs h h'
    exact h.unique hg hfree (placed_start hg hstart) hword h'

/-- A grammar in which only what comes next tells whether a nonterminal vanishes, and in which two
of them can vanish side by side. -/
def optional : Grammar where
  start := "S"
  nonterminals := ["S", "A", "B"]
  productions := [⟨"S", ["A", "B", "c"]⟩, ⟨"A", ["a", "A"]⟩, ⟨"A", [epsilon]⟩, ⟨"B", ["b"]⟩,
    ⟨"B", []⟩]

/-- The string `a c` has one leftmost derivation. -/
theorem leftmost_optional : optional.Declared ∧ optional.start ∈ optional.nonterminals ∧
    ∃ a, optional.analyse? = .ok a ∧ a.conflicts = [] ∧
      ∃! ps, optional.Leftmost ["S"] ps ["a", "c"] := by
  have hg : optional.Declared := {
    lhs_mem := by decide
    epsilon_notMem := by decide }
  have hstart : optional.start ∈ optional.nonterminals := by decide
  rcases leftmost_unique hg hstart with ⟨a, ha, hunique⟩
  have hsame : a = optional.analyse := by
    rw [analyse?_of_lhs_mem hg.lhs_mem hstart] at ha
    exact (Except.ok.inj ha).symm
  have hfree : a.conflicts = [] := by
    rw [hsame]
    apply conflicts_eq_nil_of_unique
    decide +kernel
  have hword : ∀ s ∈ ["a", "c"], s ∉ optional.nonterminals := by decide
  have hgone : optional.Yields ["A"] [] :=
    .rule (p := ⟨"A", [epsilon]⟩) (by decide) .nil .nil
  have hA : optional.Yields ["A"] ["a"] :=
    .rule (p := ⟨"A", ["a", "A"]⟩) (by decide) (.terminal (by decide) hgone) .nil
  have hc : optional.Yields ["c"] ["c"] := .terminal (by decide) .nil
  have hB : optional.Yields ["B", "c"] ["c"] := .rule (p := ⟨"B", []⟩) (by decide) .nil hc
  have hS : optional.Yields ["S"] ["a", "c"] :=
    .rule (p := ⟨"S", ["A", "B", "c"]⟩) (by decide) (yields_append.mpr ⟨_, _, rfl, hA, hB⟩) .nil
  obtain ⟨hexists, hone⟩ := hunique hfree ["a", "c"] hword
  obtain ⟨ps, hps⟩ := hexists hS.derives
  exact ⟨hg, hstart, a, ha, hfree, ps, hps, fun qs hqs => hone qs ps hqs hps⟩

end Grammar

end PrintfLint
