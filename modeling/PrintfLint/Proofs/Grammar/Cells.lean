import PrintfLint.Proofs.Grammar.Table

/-!
# PrintfLint.Proofs.Grammar.Cells — the table and its conflicts are exact

* `Grammar.Predicts` — the lookaheads that ask for a rule, as a union of two sets;
* `Grammar.Foremost` — the first rule of a nonterminal that a lookahead asks for;
* `rule?_eq_some_iff_foremost`, `rule?_eq_none_iff_predicts` — what a cell holds;
* `keyed_fill`, `lookahead_mem` — every cell is found by its key, which ends in a terminal or the
  end mark;
* `conflicts_eq_nil_iff` — there are no conflicts if no lookahead asks for two rules;
* `table_exact` — all of this about the analysis of a grammar.

Nothing is asked of the grammar but that its left sides and its start symbol are nonterminals. Rules
may be listed twice, and hold the two special symbols anywhere.
-/

namespace PrintfLint

/-- Every cell is the one that is found under its nonterminal and its lookahead. -/
def Table.Keyed (table : Table) : Prop :=
  ∀ c ∈ table, table.rule? c.nonterminal c.lookahead = some c.production

theorem Filling.keyed_place {f : Filling} (h : f.table.Keyed) (p : Production)
    (lookahead : String) : (f.place p lookahead).table.Keyed := by
  intro c hc
  have hold : c ∈ f.table → (f.place p lookahead).table.rule? c.nonterminal c.lookahead =
      some c.production := by
    intro hc
    rw [rule?_place, h c hc, Option.some_or]
  unfold place at hc
  split at hc
  · -- an empty cell is filled
    rename_i hnone
    rcases List.mem_append.mp hc with hc | hc
    · exact hold hc
    · rw [List.mem_singleton.mp hc, rule?_place, hnone, Option.none_or, if_pos ⟨rfl, rfl⟩]
  · -- a cell that is full stays as it is
    split at hc
    · exact hold hc
    · exact hold hc

namespace Grammar

variable {g : Grammar}

/-! ## Lookaheads that ask for a rule -/

/-- The lookahead asks for the rule: its right side can start with it by the FIRST sets, or can
vanish by them, and the lookahead is in the FOLLOW set of its left side. -/
def Predicts (g : Grammar) (t : String) (p : Production) : Prop :=
  (t ∈ firstOf g.nonterminals g.first p.rhs ∧ t ≠ epsilon) ∨
    (epsilon ∈ firstOf g.nonterminals g.first p.rhs ∧ t ∈ (g.follow g.first).of p.lhs)

instance (t : String) (p : Production) : Decidable (g.Predicts t p) :=
  inferInstanceAs (Decidable (_ ∨ _))

theorem mem_predict_iff {t : String} {p : Production} :
    t ∈ g.predict g.first g.follows p ↔ g.Predicts t p := by
  rw [mem_predict, mem_successors, Predicts, follows]

/-- The rule is one of the nonterminal, the lookahead asks for it, and it asks for no rule of the
nonterminal that the grammar lists before. -/
def Foremost (g : Grammar) (n t : String) (p : Production) : Prop :=
  ∃ before after, g.productions = before ++ p :: after ∧ p.lhs = n ∧ g.Predicts t p ∧
    ∀ q ∈ before, q.lhs = n → ¬ g.Predicts t q

/-! ## Cells -/

/-- The first request for a cell comes from the first rule that asks for it. -/
theorem find?_requests (first follow : SymbolSets) (n t : String) :
    ((g.requests first follow).find? fun r => r.1.lhs = n ∧ r.2 = t).map Prod.fst =
      g.productions.find? fun p => p.lhs = n ∧ t ∈ g.predict first follow p := by
  -- the requests of one rule are for the cells before its lookaheads
  have hown : ∀ p : Production, (((g.predict first follow p).map fun s => (p, s)).find?
      fun r => r.1.lhs = n ∧ r.2 = t).map Prod.fst =
        if p.lhs = n ∧ t ∈ g.predict first follow p then some p else none := by
    intro p
    cases hfind : ((g.predict first follow p).map fun s => (p, s)).find?
        fun r => r.1.lhs = n ∧ r.2 = t with
    | none =>
      have hno : ∀ s ∈ g.predict first follow p, p.lhs = n → s ≠ t := by simpa using hfind
      rw [if_neg fun h => hno t h.2 h.1 rfl]
      rfl
    | some r =>
      have hkey : r.1.lhs = n ∧ r.2 = t := by simpa using List.find?_some hfind
      rcases List.mem_map.mp (List.mem_of_find?_eq_some hfind) with ⟨s, hs, rfl⟩
      rcases hkey with ⟨hn, rfl⟩
      rw [if_pos ⟨hn, hs⟩]
      rfl
  unfold requests
  induction g.productions with
  | nil => rfl
  | cons p ps ih =>
    rw [List.flatMap_cons, List.find?_append, Option.map_or, ih, hown, List.find?_cons]
    by_cases h : p.lhs = n ∧ t ∈ g.predict first follow p
    · simp [h]
    · simp [h]

theorem rule?_eq_find? (n t : String) :
    g.analyse.table.rule? n t =
      g.productions.find? fun p => p.lhs = n ∧ t ∈ g.predict g.first g.follows p := by
  rw [← find?_requests, ← rule?_fill]
  rfl

/-- A cell holds the first rule of its nonterminal that the lookahead asks for. -/
theorem rule?_eq_some_iff_foremost {n t : String} {p : Production} :
    g.analyse.table.rule? n t = some p ↔ g.Foremost n t p := by
  rw [rule?_eq_find?, List.find?_eq_some_iff_append]
  constructor
  · rintro ⟨hp, before, after, hsplit, hbefore⟩
    obtain ⟨hn, ht⟩ : p.lhs = n ∧ t ∈ g.predict g.first g.follows p := by simpa using hp
    refine ⟨before, after, hsplit, hn, mem_predict_iff.mp ht, ?_⟩
    -- a rule before the first one that fits does not fit
    intro q hq hqn hqt
    have hnot := hbefore q hq
    simp [hqn, mem_predict_iff.mpr hqt] at hnot
  · rintro ⟨before, after, hsplit, hn, ht, hbefore⟩
    refine ⟨by simpa [hn] using mem_predict_iff.mpr ht, before, after, hsplit, ?_⟩
    intro q hq
    -- the rules before it are for other nonterminals, or are not asked for
    by_cases hqn : q.lhs = n
    · have hnot : t ∉ g.predict g.first g.follows q :=
        fun hmem => hbefore q hq hqn (mem_predict_iff.mp hmem)
      simp [hnot]
    · simp [hqn]

/-- A cell is empty if the lookahead asks for no rule of its nonterminal. -/
theorem rule?_eq_none_iff_predicts {n t : String} :
    g.analyse.table.rule? n t = none ↔
      ∀ p ∈ g.productions, p.lhs = n → ¬ g.Predicts t p := by
  rw [rule?_eq_find?, List.find?_eq_none]
  refine forall₂_congr fun p _ => ?_
  rw [← mem_predict_iff]
  simp

/-- The table is one of cells that are found by their keys. -/
theorem keyed_fill (first follow : SymbolSets) : (g.fill first follow).table.Keyed := by
  have hplaceAll : ∀ (requests : List (Production × String)) (f : Filling), f.table.Keyed →
      (f.placeAll requests).table.Keyed := by
    intro requests
    induction requests with
    | nil => exact fun f h => h
    | cons r requests ih => exact fun f h => ih _ (Filling.keyed_place h r.1 r.2)
  rw [fill_eq]
  refine hplaceAll _ _ ?_
  intro c hc
  cases hc

/-! ## Lookaheads of the table -/

theorem mem_terminals_of_opens {t : String} {form : List String} (h : g.Opens t (spell form))
    (hform : form ⊆ g.productions.flatMap Production.rhs) : t ∈ g.terminals := by
  have hword : epsilon ∉ spell form := fun hmem => (mem_spell.mp hmem).2 rfl
  have hsymbol : t ∈ g.productions.flatMap Production.rhs := by
    rcases h.mem with hmem | ⟨p, hp, hmem⟩
    · exact hform (mem_spell.mp hmem).1
    · exact List.mem_flatMap.mpr ⟨p, hp, (mem_spell.mp hmem).1⟩
  exact List.mem_filter.mpr ⟨hsymbol, by simpa using ⟨h.ne_epsilon hword, h.notMem⟩⟩

/-- FIRST of a part of a rule holds terminals, and `ε`. -/
theorem mem_terminals_of_mem_firstOf {t : String} {form : List String}
    (hform : form ⊆ g.productions.flatMap Production.rhs)
    (ht : t ∈ firstOf g.nonterminals g.first form) (hne : t ≠ epsilon) : t ∈ g.terminals := by
  rw [← firstOf_spell] at ht
  have hword : epsilon ∉ spell form := fun hmem => (mem_spell.mp hmem).2 rfl
  have hstarts := g.soundFirst_first.firstOf hword ht
  exact mem_terminals_of_opens ((starts_ne hne).mp hstarts) hform

/-- FOLLOW holds terminals and the end mark. -/
theorem mem_terminals_of_mem_follows {n t : String} (h : t ∈ g.follows.of n) :
    t ∈ g.terminals ∨ t = endMark := by
  -- each round adds first symbols of what stands behind, or symbols that were there before
  let inv : SymbolSets → Prop := fun follow =>
    ∀ n t, t ∈ follow.of n → t ∈ g.terminals ∨ t = endMark
  have hround : ∀ follow, inv follow → inv (g.roundFollow g.first follow) := by
    intro follow h
    refine roundFollow_inv inv ?_ h
    intro p hp before s rest follow hrhs _ h n t ht
    have hrest : rest ⊆ g.productions.flatMap Production.rhs := by
      intro s hs
      exact List.mem_flatMap.mpr ⟨p, hp, by simp [hrhs, hs]⟩
    rcases SymbolSets.mem_of_add.mp ht with ht | ⟨rfl, _, ht⟩
    · exact h n t ht
    · rcases mem_successors.mp ht with ⟨ht, hne⟩ | ⟨_, ht⟩
      · exact .inl (mem_terminals_of_mem_firstOf hrest ht hne)
      · exact h p.lhs t ht
  refine settle_inv inv hround _ ?_ n t h
  -- at the start only the end mark is there
  intro n t ht
  rcases SymbolSets.mem_of_add.mp ht with ht | ⟨_, _, ht⟩
  · rw [SymbolSets.of_empty] at ht
    cases ht
  · exact .inr (List.mem_singleton.mp ht)

/-- What asks for a rule is a terminal or the end mark. -/
theorem Predicts.mem {p : Production} (hp : p ∈ g.productions) {t : String}
    (h : g.Predicts t p) : t ∈ g.terminals ∨ t = endMark := by
  have hrhs : p.rhs ⊆ g.productions.flatMap Production.rhs :=
    fun s hs => List.mem_flatMap.mpr ⟨p, hp, hs⟩
  rcases h with ⟨ht, hne⟩ | ⟨_, ht⟩
  · exact .inl (mem_terminals_of_mem_firstOf hrhs ht hne)
  · exact mem_terminals_of_mem_follows ht

theorem Foremost.mem {n t : String} {p : Production} (h : g.Foremost n t p) :
    p ∈ g.productions := by
  rcases h with ⟨before, after, hsplit, _⟩
  rw [hsplit]
  exact List.mem_append_right before List.mem_cons_self

theorem lookahead_mem {c : Cell} (hc : c ∈ g.analyse.table) :
    c.lookahead ∈ g.terminals ∨ c.lookahead = endMark := by
  have hforemost := rule?_eq_some_iff_foremost.mp (keyed_fill g.first g.follows c hc)
  have hp := hforemost.mem
  rcases hforemost with ⟨_, _, _, _, ht, _⟩
  exact ht.mem hp

/-! ## Conflicts -/

/-- A conflict is a rule that the lookahead asks for while the cell holds another one. -/
theorem mem_conflicts_iff {c : Conflict} :
    c ∈ g.analyse.conflicts ↔
      c.refused ∈ g.productions ∧ c.refused.lhs = c.nonterminal ∧
        g.Predicts c.lookahead c.refused ∧ c.kept ≠ c.refused ∧
        g.Foremost c.nonterminal c.lookahead c.kept := by
  have hfill : c ∈ g.analyse.conflicts ↔
      ∃ r ∈ g.requests g.first g.follows, c.Marks g.analyse.table r.1 r.2 := mem_conflicts_fill
  rw [hfill]
  constructor
  · rintro ⟨⟨p, t⟩, hr, hn, ht, hp, hne, hkept⟩
    -- a rule that is refused was asked for with its own left side
    rcases mem_requests.mp hr with ⟨hmem, hpredict⟩
    subst hp ht
    rw [hn]
    exact ⟨hmem, rfl, mem_predict_iff.mp hpredict, hne, rule?_eq_some_iff_foremost.mp hkept⟩
  · rintro ⟨hmem, hn, ht, hne, hkept⟩
    refine ⟨(c.refused, c.lookahead), mem_requests.mpr ⟨hmem, mem_predict_iff.mpr ht⟩, hn.symm,
      rfl, rfl, hne, ?_⟩
    rw [hn]
    exact rule?_eq_some_iff_foremost.mpr hkept

/-- There are no conflicts if no lookahead asks for two rules of one nonterminal. -/
theorem conflicts_eq_nil_iff :
    g.analyse.conflicts = [] ↔
      ∀ p ∈ g.productions, ∀ q ∈ g.productions, p.lhs = q.lhs → p ≠ q →
        ¬ ∃ t, g.Predicts t p ∧ g.Predicts t q := by
  constructor
  · -- in a table without conflicts the cell holds each rule that is asked for, so these two are one
    rintro hnil p hp q hq hlhs hne ⟨t, htp, htq⟩
    have hall := (conflicts_fill_eq_nil g.first g.follows).mp hnil
    have hpcell := hall (p, t) (mem_requests.mpr ⟨hp, mem_predict_iff.mpr htp⟩)
    have hqcell := hall (q, t) (mem_requests.mpr ⟨hq, mem_predict_iff.mpr htq⟩)
    simp only [← hlhs] at hqcell
    rw [hpcell] at hqcell
    exact hne (Option.some.inj hqcell)
  · intro h
    apply conflicts_eq_nil_of_unique
    intro p hp q hq hlhs t htp htq
    by_contra hne
    rw [← mem_predict] at htp htq
    exact h p hp q hq hlhs hne ⟨t, mem_predict_iff.mp htp, mem_predict_iff.mp htq⟩

/-! ## The table -/

/-- The table is exact. A cell holds the first rule of its nonterminal, in the order of the grammar,
that the lookahead asks for, and is empty if there is none; the lookaheads are terminals of the
grammar or the end mark. The conflicts are the other rules that a cell is asked for, so that there
are none if no lookahead asks for two rules of one nonterminal. -/
theorem table_exact (hlhs : ∀ p ∈ g.productions, p.lhs ∈ g.nonterminals)
    (hstart : g.start ∈ g.nonterminals) :
    ∃ a, g.analyse? = .ok a ∧
      (∀ n t p, a.table.rule? n t = some p ↔ g.Foremost n t p) ∧
      (∀ n t, a.table.rule? n t = none ↔ ∀ p ∈ g.productions, p.lhs = n → ¬ g.Predicts t p) ∧
      (∀ c ∈ a.table, a.table.rule? c.nonterminal c.lookahead = some c.production ∧
        (c.lookahead ∈ g.terminals ∨ c.lookahead = endMark)) ∧
      (∀ c, c ∈ a.conflicts ↔
        c.refused ∈ g.productions ∧ c.refused.lhs = c.nonterminal ∧
          g.Predicts c.lookahead c.refused ∧ c.kept ≠ c.refused ∧
          g.Foremost c.nonterminal c.lookahead c.kept) ∧
      (a.conflicts = [] ↔
        ∀ p ∈ g.productions, ∀ q ∈ g.productions, p.lhs = q.lhs → p ≠ q →
          ¬ ∃ t, g.Predicts t p ∧ g.Predicts t q) := by
  refine ⟨g.analyse, analyse?_of_lhs_mem hlhs hstart, ?_, ?_, ?_, ?_, conflicts_eq_nil_iff⟩
  · intro n t p
    exact rule?_eq_some_iff_foremost
  · intro n t
    exact rule?_eq_none_iff_predicts
  · intro c hc
    exact ⟨keyed_fill g.first g.follows c hc, lookahead_mem hc⟩
  · intro c
    exact mem_conflicts_iff

/-- A grammar with a rule that is listed twice, and a rule that can vanish before what the first one
starts with. -/
def overlapping : Grammar where
  start := "S"
  nonterminals := ["S", "A"]
  productions := [⟨"S", ["A", "a"]⟩, ⟨"A", ["a"]⟩, ⟨"A", []⟩, ⟨"A", ["a"]⟩]

/-- The first of these rules stays in the cell, and the other one is noted as a conflict. -/
theorem table_overlapping :
    (∀ p ∈ overlapping.productions, p.lhs ∈ overlapping.nonterminals) ∧
      overlapping.start ∈ overlapping.nonterminals ∧
      ∃ a, overlapping.analyse? = .ok a ∧ a.table.rule? "A" "a" = some ⟨"A", ["a"]⟩ ∧
        a.table.rule? "A" endMark = none ∧ ⟨"A", "a", ⟨"A", ["a"]⟩, ⟨"A", []⟩⟩ ∈ a.conflicts := by
  have hlhs : ∀ p ∈ overlapping.productions, p.lhs ∈ overlapping.nonterminals := by decide
  have hstart : overlapping.start ∈ overlapping.nonterminals := by decide
  obtain ⟨a, ha, hcell, hempty, _, hconflicts, _⟩ := table_exact hlhs hstart
  -- the first rule for the nonterminal in the list, with no other before it that fits
  have hforemost : overlapping.Foremost "A" "a" ⟨"A", ["a"]⟩ :=
    ⟨[⟨"S", ["A", "a"]⟩], [⟨"A", []⟩, ⟨"A", ["a"]⟩], rfl, rfl, by decide +kernel,
      by decide +kernel⟩
  refine ⟨hlhs, hstart, a, ha, ?_, ?_, ?_⟩
  · exact (hcell "A" "a" ⟨"A", ["a"]⟩).mpr hforemost
  · rw [hempty]
    decide +kernel
  · rw [hconflicts]
    exact ⟨by decide, rfl, by decide +kernel, by decide, hforemost⟩

end Grammar

end PrintfLint
