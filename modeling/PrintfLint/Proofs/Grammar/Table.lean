import PrintfLint.Grammar.Table
import PrintfLint.Proofs.Grammar.Follow

/-!
# PrintfLint.Proofs.Grammar.Table — what the cells of the table hold

The table is filled by requests, each a rule with a lookahead that asks for it.

* `rule?_fill` — a cell holds the rule of the first request for it;
* `mem_conflicts_fill` — a conflict is a request that finds another rule in its cell;
* `conflicts_fill_eq_nil` — there are no conflicts if each request finds its own rule in its cell;
* `rule?_eq_some_iff` — in a table without conflicts, a cell holds a rule of the grammar exactly if
  the lookahead asks for it.
-/

namespace PrintfLint

namespace Table

theorem rule?_append (table : Table) (c : Cell) (n t : String) :
    rule? (table ++ [c]) n t =
      (rule? table n t).or
        (if c.nonterminal = n ∧ c.lookahead = t then some c.production else none) := by
  simp only [rule?, List.find?_append, Option.map_or]
  by_cases h : c.nonterminal = n ∧ c.lookahead = t
  · simp [h]
  · simp [h]

end Table

/-- The conflict is that of a rule which finds another one in its cell. -/
def Conflict.Marks (table : Table) (p : Production) (lookahead : String) (c : Conflict) : Prop :=
  c.nonterminal = p.lhs ∧ c.lookahead = lookahead ∧ c.refused = p ∧ c.kept ≠ p ∧
    table.rule? p.lhs lookahead = some c.kept

namespace Filling

/-- Putting a rule into its cell changes that cell only, and only if it was empty. -/
theorem rule?_place (f : Filling) (p : Production) (lookahead n t : String) :
    (f.place p lookahead).table.rule? n t =
      (f.table.rule? n t).or (if p.lhs = n ∧ lookahead = t then some p else none) := by
  unfold place
  split
  · exact Table.rule?_append ..
  · rename_i kept hkept
    -- the cell is full, so whatever is placed there makes no difference
    have hsame : (f.table.rule? n t).or (if p.lhs = n ∧ lookahead = t then some p else none) =
        f.table.rule? n t := by
      by_cases h : p.lhs = n ∧ lookahead = t
      · rcases h with ⟨rfl, rfl⟩
        rw [hkept, Option.some_or]
      · rw [if_neg h, Option.or_none]
    rw [hsame]
    split <;> rfl

/-- A cell that a rule was put into holds this rule or another one. -/
theorem exists_rule?_place (f : Filling) (p : Production) (lookahead : String) :
    ∃ kept, (f.place p lookahead).table.rule? p.lhs lookahead = some kept := by
  rw [rule?_place]
  cases f.table.rule? p.lhs lookahead <;> simp

/-- A rule meets a conflict if its cell holds another rule. -/
theorem mem_conflicts_place (f : Filling) (p : Production) (lookahead : String) (c : Conflict) :
    c ∈ (f.place p lookahead).conflicts ↔
      c ∈ f.conflicts ∨ c.Marks (f.place p lookahead).table p lookahead := by
  rw [Conflict.Marks, rule?_place]
  rcases c with ⟨n, t, kept, refused⟩
  unfold place
  -- the cell is empty and takes the rule, or holds a rule, which is the same one or not
  split
  · rename_i hnone
    simp only [hnone, Option.none_or, true_and, if_true, Option.some.injEq]
    constructor
    · exact .inl
    · rintro (hc | ⟨_, _, _, hne, heq⟩)
      · exact hc
      · -- a rule that has just been put into the cell is no other rule
        exact absurd heq.symm hne
  · rename_i old hold
    simp only [hold, Option.some_or, Option.some.injEq]
    by_cases h : old = p
    · rw [if_pos h]
      constructor
      · exact .inl
      · rintro (hc | ⟨_, _, _, hne, heq⟩)
        · exact hc
        · exact absurd (heq.symm.trans h) hne
    · -- this is the new conflict, and the cell is as it was
      rw [if_neg h, List.mem_append, List.mem_singleton, Conflict.mk.injEq]
      refine or_congr_right ?_
      constructor
      · rintro ⟨rfl, rfl, rfl, rfl⟩
        exact ⟨rfl, rfl, rfl, h, rfl⟩
      · rintro ⟨rfl, rfl, rfl, _, rfl⟩
        exact ⟨rfl, rfl, rfl, rfl⟩

/-- Puts one rule after the other into their cells. -/
def placeAll (f : Filling) (requests : List (Production × String)) : Filling :=
  requests.foldl (fun f r => f.place r.1 r.2) f

theorem rule?_placeAll (f : Filling) (requests : List (Production × String)) (n t : String) :
    (f.placeAll requests).table.rule? n t =
      (f.table.rule? n t).or ((requests.find? fun r => r.1.lhs = n ∧ r.2 = t).map Prod.fst) := by
  induction requests generalizing f with
  | nil => simp [placeAll]
  | cons r requests ih =>
    have hstep : f.placeAll (r :: requests) = (f.place r.1 r.2).placeAll requests := rfl
    rw [hstep, ih, rule?_place, Option.or_assoc, List.find?_cons]
    by_cases h : r.1.lhs = n ∧ r.2 = t
    · simp [h]
    · simp [h]

/-- A filled cell stays as it is. -/
theorem rule?_placeAll_of_some {f : Filling} {n t : String} {p : Production}
    (h : f.table.rule? n t = some p) (requests : List (Production × String)) :
    (f.placeAll requests).table.rule? n t = some p := by
  rw [rule?_placeAll, h, Option.some_or]

/-- The conflicts are those of the requests that find another rule in their cell at the end. -/
theorem mem_conflicts_placeAll (f : Filling) (requests : List (Production × String))
    (c : Conflict) :
    c ∈ (f.placeAll requests).conflicts ↔
      c ∈ f.conflicts ∨ ∃ r ∈ requests, c.Marks (f.placeAll requests).table r.1 r.2 := by
  induction requests generalizing f with
  | nil => simp [placeAll]
  | cons r requests ih =>
    have hstep : f.placeAll (r :: requests) = (f.place r.1 r.2).placeAll requests := rfl
    -- the cell is filled by this request or was before, and it keeps what it holds
    have hkeep : ((f.place r.1 r.2).placeAll requests).table.rule? r.1.lhs r.2 =
        (f.place r.1 r.2).table.rule? r.1.lhs r.2 := by
      rcases f.exists_rule?_place r.1 r.2 with ⟨kept, hkept⟩
      rw [hkept, rule?_placeAll_of_some hkept]
    have hfirst : c.Marks (f.place r.1 r.2).table r.1 r.2 ↔
        c.Marks ((f.place r.1 r.2).placeAll requests).table r.1 r.2 := by
      rw [Conflict.Marks, Conflict.Marks, hkeep]
    rw [hstep, ih, mem_conflicts_place, hfirst, List.exists_mem_cons_iff, or_assoc]

end Filling

namespace Grammar

variable {g : Grammar}

/-- The rules with the lookaheads that ask for them, in the order in which the table is filled. -/
def requests (g : Grammar) (first follow : SymbolSets) : List (Production × String) :=
  g.productions.flatMap fun p => (g.predict first follow p).map fun t => (p, t)

theorem mem_requests {first follow : SymbolSets} {p : Production} {t : String} :
    (p, t) ∈ g.requests first follow ↔ p ∈ g.productions ∧ t ∈ g.predict first follow p := by
  simp [requests]

theorem fill_eq (first follow : SymbolSets) :
    g.fill first follow = ({} : Filling).placeAll (g.requests first follow) := by
  simp [fill, Filling.placeAll, requests, List.foldl_flatMap, List.foldl_map]

/-- A cell holds the rule of the first request for it. -/
theorem rule?_fill (first follow : SymbolSets) (n t : String) :
    (g.fill first follow).table.rule? n t =
      ((g.requests first follow).find? fun r => r.1.lhs = n ∧ r.2 = t).map Prod.fst := by
  have hempty : Table.rule? ({} : Filling).table n t = none := rfl
  rw [fill_eq, Filling.rule?_placeAll, hempty, Option.none_or]

/-- The conflicts are those of the requests that find another rule in their cell. -/
theorem mem_conflicts_fill {first follow : SymbolSets} {c : Conflict} :
    c ∈ (g.fill first follow).conflicts ↔
      ∃ r ∈ g.requests first follow, c.Marks (g.fill first follow).table r.1 r.2 := by
  rw [fill_eq, Filling.mem_conflicts_placeAll]
  simp

/-- There are no conflicts if each request finds its own rule in its cell. -/
theorem conflicts_fill_eq_nil (first follow : SymbolSets) :
    (g.fill first follow).conflicts = [] ↔
      ∀ r ∈ g.requests first follow,
        (g.fill first follow).table.rule? r.1.lhs r.2 = some r.1 := by
  constructor
  · intro hnil r hr
    -- the request itself is one for the cell, so the cell is not empty
    obtain ⟨kept, hkept⟩ : ∃ kept, (g.fill first follow).table.rule? r.1.lhs r.2 = some kept := by
      rw [← Option.isSome_iff_exists, rule?_fill, Option.isSome_map, List.find?_isSome]
      exact ⟨r, hr, by simp⟩
    by_cases heq : kept = r.1
    · rw [hkept, heq]
    · have hconflict : ⟨r.1.lhs, r.2, kept, r.1⟩ ∈ (g.fill first follow).conflicts :=
        mem_conflicts_fill.mpr ⟨r, hr, rfl, rfl, rfl, heq, hkept⟩
      rw [hnil] at hconflict
      cases hconflict
  · intro hall
    rw [List.eq_nil_iff_forall_not_mem]
    intro c hc
    rcases mem_conflicts_fill.mp hc with ⟨r, hr, _, _, _, hne, hkept⟩
    rw [hall r hr] at hkept
    exact hne (Option.some.inj hkept).symm

theorem mem_predict {first follow : SymbolSets} {p : Production} {t : String} :
    t ∈ g.predict first follow p ↔ t ∈ g.successors first p.lhs p.rhs follow := by
  rw [mem_successors, predict]
  by_cases h : epsilon ∈ firstOf g.nonterminals first p.rhs
  · simp [h, mem_sortSymbols]
  · simp [h, mem_sortSymbols]

/-- There are no conflicts if no lookahead asks for two rules of one nonterminal. -/
theorem conflicts_eq_nil_of_unique {first follow : SymbolSets}
    (h : ∀ p ∈ g.productions, ∀ q ∈ g.productions, p.lhs = q.lhs →
      ∀ t ∈ g.successors first p.lhs p.rhs follow,
        t ∈ g.successors first q.lhs q.rhs follow → p = q) :
    (g.fill first follow).conflicts = [] := by
  rw [conflicts_fill_eq_nil]
  rintro ⟨p, t⟩ hmem
  rcases mem_requests.mp hmem with ⟨hp, ht⟩
  rw [rule?_fill]
  -- the first request for the cell is for the same rule, by uniqueness
  cases hfind : (g.requests first follow).find? fun r => r.1.lhs = p.lhs ∧ r.2 = t with
  | none =>
    have hnone := List.find?_eq_none.mp hfind (p, t) hmem
    simp at hnone
  | some r =>
    rcases r with ⟨q, s⟩
    have hkey : q.lhs = p.lhs ∧ s = t := by simpa using List.find?_some hfind
    rcases hkey with ⟨hlhs, rfl⟩
    rcases mem_requests.mp (List.mem_of_find?_eq_some hfind) with ⟨hq, hs⟩
    rw [h p hp q hq hlhs.symm s (mem_predict.mp ht) (mem_predict.mp hs)]
    rfl

/-! ## The table of an analysis -/

/-- A grammar whose left sides and start symbol are nonterminals has an analysis. -/
theorem analyse?_of_lhs_mem (hlhs : ∀ p ∈ g.productions, p.lhs ∈ g.nonterminals)
    (hstart : g.start ∈ g.nonterminals) : g.analyse? = .ok g.analyse := by
  have hnone : g.undeclared? = none := by
    rw [undeclared?, List.find?_eq_none]
    intro s hs
    rcases List.mem_append.mp hs with hs | hs
    · rcases List.mem_map.mp hs with ⟨p, hp, rfl⟩
      simpa using hlhs p hp
    · rw [List.mem_singleton.mp hs]
      simpa using hstart
  rw [analyse?, hnone]

/-- The lookahead asks for the rule: what the rule writes can start with it, or can vanish before
it. -/
def Asks (g : Grammar) (t : String) (p : Production) : Prop :=
  (g.Opens t p.word ∧ t ≠ epsilon) ∨ (g.Vanishes p.word ∧ t ∈ g.follows.of p.lhs)

theorem mem_predict_iff_asks (hg : g.Declared) {p : Production} {t : String} :
    t ∈ g.predict g.first g.follows p ↔ g.Asks t p := by
  rw [mem_predict, mem_successors, ← firstOf_spell, Asks]
  have hword := epsilon_notMem_word p
  rw [← Production.word, epsilon_mem_firstOf hg hword]
  refine or_congr_left (and_congr_left ?_)
  intro hne
  exact mem_firstOf hg hword hne

/-- The lookahead asks for the rule at the top of a tree, if the leaves and what comes after them
start with it. -/
theorem asks_of_yields {p : Production} {word rest : List String} (h : g.Yields p.word word)
    (hrest : rest.headD endMark ∈ g.follows.of p.lhs) :
    g.Asks ((word ++ rest).headD endMark) p := by
  cases word with
  | nil => exact .inr ⟨h.vanishes rfl, hrest⟩
  | cons t word =>
    have hopens : g.Opens t p.word := h.opens rfl
    exact .inl ⟨hopens, hopens.ne_epsilon (epsilon_notMem_word p)⟩

/-- The rule in a cell is one of its nonterminal, and the lookahead asks for it. -/
theorem rule?_analyse (hg : g.Declared) {n t : String} {p : Production}
    (h : g.analyse.table.rule? n t = some p) :
    p ∈ g.productions ∧ p.lhs = n ∧ g.Asks t p := by
  have hcell : (g.fill g.first g.follows).table.rule? n t = some p := h
  rw [rule?_fill] at hcell
  rcases Option.map_eq_some_iff.mp hcell with ⟨⟨q, s⟩, hfind, rfl⟩
  have hmem := mem_requests.mp (List.mem_of_find?_eq_some hfind)
  have hkey : q.lhs = n ∧ s = t := by simpa using List.find?_some hfind
  rcases hkey with ⟨hn, rfl⟩
  exact ⟨hmem.1, hn, (mem_predict_iff_asks hg).mp hmem.2⟩

/-- Without conflicts, a lookahead that asks for a rule finds it. -/
theorem rule?_of_asks (hg : g.Declared) (hfree : g.analyse.conflicts = []) {t : String}
    {p : Production} (hp : p ∈ g.productions) (ht : g.Asks t p) :
    g.analyse.table.rule? p.lhs t = some p := by
  have hall := (conflicts_fill_eq_nil g.first g.follows).mp hfree
  exact hall (p, t) (mem_requests.mpr ⟨hp, (mem_predict_iff_asks hg).mpr ht⟩)

/-- Without conflicts, a cell holds exactly the rule of its nonterminal that the lookahead asks
for. -/
theorem rule?_eq_some_iff (hg : g.Declared) (hfree : g.analyse.conflicts = []) {n t : String}
    {p : Production} :
    g.analyse.table.rule? n t = some p ↔ p ∈ g.productions ∧ p.lhs = n ∧ g.Asks t p := by
  constructor
  · exact rule?_analyse hg
  · rintro ⟨hp, rfl, ht⟩
    exact rule?_of_asks hg hfree hp ht

end Grammar

end PrintfLint
