import PrintfLint.Grammar.Follow
import PrintfLint.Proofs.Grammar.First

/-!
# PrintfLint.Proofs.Grammar.Follow — the FOLLOW sets are closed under the rules

* `Grammar.follows` — the FOLLOW sets that belong to the FIRST sets of a grammar;
* `follows_settles`, `roundFollow_follows` — they are a fixed point: the bound on the rounds
  suffices;
* `endMark_mem_follows`, `mem_follows_of_opens`, `mem_follows_of_vanishes` — the three ways for a
  symbol to come after a nonterminal.
-/

namespace PrintfLint

/-! ## Places in strings -/

/-- A place in what a rule writes is a place in its right side. -/
theorem spell_eq_append_cons {symbols a b : List String} {s : String}
    (h : spell symbols = a ++ s :: b) :
    ∃ a' b', symbols = a' ++ s :: b' ∧ spell b' = b := by
  rcases List.filter_eq_append_iff.mp h with ⟨a', rest, rfl, _, hrest⟩
  rcases List.filter_eq_cons_iff.mp hrest with ⟨gone, b', rfl, _, _, hb'⟩
  exact ⟨a' ++ gone, b', by rw [List.append_assoc], hb'⟩

theorem eq_of_singleton_eq {s n : String} {a b : List String} (h : [s] = a ++ n :: b) :
    s = n ∧ b = [] := by
  cases a with
  | nil => simpa [eq_comm] using h
  | cons x a => simp at h

/-- A place in a string of two parts is a place in one of them. -/
theorem append_eq_append_cons {left right before after : List String} {n : String}
    (h : left ++ right = before ++ n :: after) :
    (∃ rest, left = before ++ n :: rest ∧ after = rest ++ right) ∨
      ∃ rest, before = left ++ rest ∧ right = rest ++ n :: after := by
  -- the place is in the second part, or in the first one, where the split may be just behind it
  rcases List.append_eq_append_iff.mp h with ⟨rest, hbefore, hright⟩ | ⟨rest, hleft, hafter⟩
  · exact .inr ⟨rest, hbefore, hright⟩
  · cases rest with
    | nil => exact .inr ⟨[], by simpa using hleft.symm, by simpa using hafter.symm⟩
    | cons m rest =>
      rw [List.cons_append, List.cons_eq_cons] at hafter
      rcases hafter with ⟨rfl, hafter⟩
      exact .inl ⟨rest, hleft, hafter⟩

namespace Grammar

variable {g : Grammar}

/-- The FOLLOW sets that belong to the FIRST sets of the grammar. -/
def follows (g : Grammar) : SymbolSets :=
  g.follow g.first

/-- What comes after a symbol with the given rest of a right side behind it. -/
def successors (g : Grammar) (first : SymbolSets) (lhs : String) (rest : List String)
    (follow : SymbolSets) : List String :=
  let next := firstOf g.nonterminals first rest
  let own := next.filter fun t => t ≠ epsilon
  if epsilon ∈ next then unite own (follow.of lhs) else own

theorem mem_successors {first follow : SymbolSets} {lhs : String} {rest : List String}
    {t : String} :
    t ∈ g.successors first lhs rest follow ↔
      (t ∈ firstOf g.nonterminals first rest ∧ t ≠ epsilon) ∨
        (epsilon ∈ firstOf g.nonterminals first rest ∧ t ∈ follow.of lhs) := by
  rw [successors]
  by_cases h : epsilon ∈ firstOf g.nonterminals first rest
  · simp [h, mem_unite]
  · simp [h]

theorem extendFollow_cons (first : SymbolSets) (lhs s : String) (rest : List String)
    (follow : SymbolSets) :
    g.extendFollow first lhs (s :: rest) follow =
      g.extendFollow first lhs rest
        (if s ∈ g.nonterminals then follow.add s (g.successors first lhs rest follow)
          else follow) := by
  rw [extendFollow]
  by_cases h : s ∈ g.nonterminals
  · simp only [if_pos h, successors]
  · simp only [if_neg h]

/-! ## The fixed point -/

/-- What one place of a right side adds. -/
theorem place_inflates (first : SymbolSets) (lhs s : String) (rest : List String) :
    Inflates SymbolSets.size fun follow =>
      if s ∈ g.nonterminals then follow.add s (g.successors first lhs rest follow) else follow := by
  intro follow
  by_cases h : s ∈ g.nonterminals
  · simp only [if_pos h]
    exact SymbolSets.add_inflates s _ follow
  · simp only [if_neg h]
    exact .inl trivial

theorem extendFollow_inflates (first : SymbolSets) (lhs : String) (symbols : List String) :
    Inflates SymbolSets.size fun follow => g.extendFollow first lhs symbols follow := by
  induction symbols with
  | nil => exact Inflates.refl
  | cons s rest ih =>
    simp only [extendFollow_cons]
    exact (place_inflates first lhs s rest).comp ih

theorem roundFollow_inflates (first : SymbolSets) :
    Inflates SymbolSets.size (g.roundFollow first) := by
  apply Inflates.foldl
  intro p
  exact extendFollow_inflates first p.lhs p.rhs

/-- What holds of the sets and is kept by what each place of a rule adds is kept by a round. -/
theorem roundFollow_inv (inv : SymbolSets → Prop)
    (hplace : ∀ p ∈ g.productions, ∀ before s rest follow, p.rhs = before ++ s :: rest →
      s ∈ g.nonterminals → inv follow →
        inv (follow.add s (g.successors g.first p.lhs rest follow)))
    {follow : SymbolSets} (h : inv follow) : inv (g.roundFollow g.first follow) := by
  -- said of the places from some one on, since the right side is walked through from its start
  have hrule : ∀ p ∈ g.productions, ∀ symbols before follow, p.rhs = before ++ symbols →
      inv follow → inv (g.extendFollow g.first p.lhs symbols follow) := by
    intro p hp symbols
    induction symbols with
    | nil => exact fun _ _ _ h => h
    | cons s rest ih =>
      intro before follow hrhs h
      have hnext : p.rhs = (before ++ [s]) ++ rest := by simpa using hrhs
      rw [extendFollow_cons]
      split
      · rename_i hs
        exact ih _ _ hnext (hplace p hp before s rest follow hrhs hs h)
      · exact ih _ _ hnext h
  unfold roundFollow
  refine List.foldlRecOn g.productions _ h ?_
  intro follow h p hp
  exact hrule p hp p.rhs [] follow (List.nil_append _).symm h

theorem roundFollow_within {follow : SymbolSets} (h : follow.Within g.nonterminals g.symbols) :
    (g.roundFollow g.first follow).Within g.nonterminals g.symbols := by
  refine roundFollow_inv _ ?_ h
  intro p hp before s rest follow hrhs _ h
  have hrest : rest ⊆ g.symbols := by
    refine List.Subset.trans ?_ (rhs_subset_symbols hp)
    simp [hrhs]
  apply h.add
  intro t ht
  -- first symbols of what is behind, or what follows the left side
  rcases mem_successors.mp ht with ⟨ht, _⟩ | ⟨_, ht⟩
  · exact firstOf_subset g.first_within.of_subset g.epsilon_mem_symbols hrest ht
  · exact h.of_subset p.lhs ht

theorem endMark_mem_symbols (g : Grammar) : endMark ∈ g.symbols := by
  simp [symbols]

/-- The sets before the first round. -/
theorem startFollow_within (g : Grammar) :
    ((SymbolSets.empty g.nonterminals).add g.start [endMark]).Within g.nonterminals g.symbols := by
  apply SymbolSets.Within.empty.add
  intro s hs
  rw [List.mem_singleton.mp hs]
  exact g.endMark_mem_symbols

theorem follows_within (g : Grammar) : g.follows.Within g.nonterminals g.symbols :=
  settle_inv (SymbolSets.Within g.nonterminals g.symbols) (fun _ => roundFollow_within) _
    g.startFollow_within

/-- The rounds come to an end, and the FOLLOW sets are where they do. -/
theorem follows_settles (g : Grammar) :
    Settles (g.roundFollow g.first) ((SymbolSets.empty g.nonterminals).add g.start [endMark])
      g.follows := by
  have hbound : g.nonterminals.length * g.symbols.length <
      SymbolSets.size ((SymbolSets.empty g.nonterminals).add g.start [endMark]) + g.growth := by
    rw [growth_eq]
    omega
  unfold follows follow
  exact settles_settle (SymbolSets.Within g.nonterminals g.symbols) (roundFollow_inflates g.first)
    (fun _ => roundFollow_within) (fun _ h => h.size_le) g.startFollow_within hbound

/-- The FOLLOW sets are stable: a further round changes nothing. -/
theorem roundFollow_follows (g : Grammar) : g.roundFollow g.first g.follows = g.follows :=
  g.follows_settles.fixed

/-! ## Closure -/

theorem mem_of_extendFollow_fixed {first follow : SymbolSets} {lhs s : String}
    {a b : List String} (h : g.extendFollow first lhs (a ++ s :: b) follow = follow)
    (hs : s ∈ g.nonterminals) (hkey : s ∈ follow.keys) {t : String}
    (ht : t ∈ g.successors first lhs b follow) : t ∈ follow.of s := by
  -- no place changes the sets, so the one at `s` is the same before and after the others
  induction a with
  | nil =>
    rw [List.nil_append, extendFollow_cons] at h
    have hplace := (Inflates.fixed_of_comp (place_inflates first lhs s b)
      (extendFollow_inflates first lhs b) h).1
    rw [if_pos hs] at hplace
    exact SymbolSets.mem_of_add_fixed hplace hkey ht
  | cons x a ih =>
    rw [List.cons_append, extendFollow_cons] at h
    have hrest := (Inflates.fixed_of_comp (place_inflates first lhs x (a ++ s :: b))
      (extendFollow_inflates first lhs (a ++ s :: b)) h).2
    exact ih hrest

/-- What comes after a place in a rule comes after the nonterminal there. -/
theorem mem_follows_of_successors {p : Production} (hp : p ∈ g.productions) {a b : List String}
    {s : String} (hword : p.word = a ++ s :: b) (hs : s ∈ g.nonterminals) {t : String}
    (ht : t ∈ g.successors g.first p.lhs b g.follows) : t ∈ g.follows.of s := by
  rcases spell_eq_append_cons hword with ⟨a', b', hrhs, rfl⟩
  have hstep : ∀ q : Production, Inflates SymbolSets.size fun follow =>
      g.extendFollow g.first q.lhs q.rhs follow :=
    fun q => extendFollow_inflates g.first q.lhs q.rhs
  -- the rounds have settled, so this rule does not add anything any more
  have hfixed : g.extendFollow g.first p.lhs p.rhs g.follows = g.follows :=
    Inflates.foldl_fixed hstep g.roundFollow_follows p hp
  rw [hrhs] at hfixed
  have hkey : s ∈ g.follows.keys := by rwa [g.follows_within.keys_eq]
  refine mem_of_extendFollow_fixed hfixed hs hkey ?_
  rw [mem_successors, firstOf_spell] at ht
  exact mem_successors.mpr ht

/-- A terminal that the rest of a rule can start with. -/
theorem mem_follows_of_opens (hg : g.Declared) {p : Production} (hp : p ∈ g.productions)
    {a b : List String} {s : String} (hword : p.word = a ++ s :: b) (hs : s ∈ g.nonterminals)
    {t : String} (hne : t ≠ epsilon) (ht : g.Opens t b) : t ∈ g.follows.of s :=
  mem_follows_of_successors hp hword hs (mem_successors.mpr (.inl ⟨ht.mem_firstOf hg hne, hne⟩))

/-- A symbol that comes after the left side of a rule, the rest of which can vanish. -/
theorem mem_follows_of_vanishes (hg : g.Declared) {p : Production} (hp : p ∈ g.productions)
    {a b : List String} {s : String} (hword : p.word = a ++ s :: b) (hs : s ∈ g.nonterminals)
    (hb : g.Vanishes b) {t : String} (ht : t ∈ g.follows.of p.lhs) : t ∈ g.follows.of s :=
  mem_follows_of_successors hp hword hs (mem_successors.mpr (.inr ⟨hb.epsilon_mem hg, ht⟩))

/-- The end mark comes after the start symbol. -/
theorem endMark_mem_follows (hstart : g.start ∈ g.nonterminals) :
    endMark ∈ g.follows.of g.start := by
  -- sets only grow: what was put in before the first round stays
  have hkeep : ∀ follow : SymbolSets, endMark ∈ follow.of g.start →
      endMark ∈ (g.roundFollow g.first follow).of g.start := by
    intro follow h
    refine roundFollow_inv (fun follow => endMark ∈ follow.of g.start) ?_ h
    intro p _ before s rest follow _ _ h
    exact SymbolSets.mem_of_add.mpr (.inl h)
  refine settle_inv _ hkeep _ ?_
  refine SymbolSets.mem_of_add.mpr (.inr ⟨rfl, ?_, List.mem_singleton_self endMark⟩)
  rwa [SymbolSets.keys_empty]

end Grammar

end PrintfLint
