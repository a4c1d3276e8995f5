import PrintfLint.Grammar.First
import PrintfLint.Proofs.Grammar.Derivation
import PrintfLint.Proofs.Grammar.Sets

/-!
# PrintfLint.Proofs.Grammar.First — the FIRST sets are exact

* `symbols_induction` — strings of symbols by what stands in front, as FIRST tells them apart;
* `first_settles`, `roundFirst_first` — the FIRST sets are a fixed point: the bound on the rounds
  suffices;
* `epsilon_mem_firstOf`, `mem_firstOf` — FIRST of a string holds `ε` if the string can vanish, and
  a terminal if the string can start with it, and nothing else.

Soundness is kept by every round. Completeness is an induction on how a string vanishes or opens,
each rule of which the fixed point has taken in (`mem_first_of_rule`).
-/

namespace PrintfLint

/-! ## FIRST of a string -/

/-- A string of symbols is empty, or starts with `ε`, with a nonterminal or with a terminal. -/
@[elab_as_elim]
theorem symbols_induction (nonterminals : List String) {motive : List String → Prop}
    (nil : motive [])
    (vanishing : ∀ rest, motive rest → motive (epsilon :: rest))
    (nonterminal : ∀ n rest, n ∈ nonterminals → n ≠ epsilon → motive rest → motive (n :: rest))
    (terminal : ∀ t rest, t ∉ nonterminals → t ≠ epsilon → motive rest → motive (t :: rest))
    (form : List String) : motive form := by
  induction form with
  | nil => exact nil
  | cons s rest ih =>
    -- the empty string is told apart first: it may be in the list of nonterminals or not
    by_cases hne : s = epsilon
    · rw [hne]
      exact vanishing rest ih
    · by_cases hs : s ∈ nonterminals
      · exact nonterminal s rest hs hne ih
      · exact terminal s rest hs hne ih

section

variable {nonterminals : List String} {first : SymbolSets}

/-- FIRST of a string that starts with `ε`. -/
theorem firstOf_epsilon (rest : List String) :
    firstOf nonterminals first (epsilon :: rest) = firstOf nonterminals first rest := by
  rw [firstOf, if_pos rfl]

/-- FIRST reads `ε` as the empty string. -/
theorem firstOf_spell (symbols : List String) :
    firstOf nonterminals first (spell symbols) = firstOf nonterminals first symbols := by
  induction symbols with
  | nil => rfl
  | cons s rest ih =>
    by_cases h : s = epsilon
    · rw [h, spell_cons_epsilon, firstOf_epsilon, ih]
    · rw [spell_cons h, firstOf, firstOf, ih]

/-- FIRST of a string that starts with a nonterminal. -/
theorem mem_firstOf_nonterminal {n : String} (hn : n ∈ nonterminals) (hne : n ≠ epsilon)
    {rest : List String} {s : String} :
    s ∈ firstOf nonterminals first (n :: rest) ↔
      (s ∈ first.of n ∧ s ≠ epsilon) ∨
        (epsilon ∈ first.of n ∧ s ∈ firstOf nonterminals first rest) := by
  rw [firstOf, if_neg hne, if_pos hn]
  by_cases h : epsilon ∈ first.of n
  · simp [h, mem_unite]
  · simp [h]

/-- FIRST of a string that starts with a terminal. -/
theorem firstOf_terminal {t : String} (ht : t ∉ nonterminals) (hne : t ≠ epsilon)
    (rest : List String) : firstOf nonterminals first (t :: rest) = [t] := by
  rw [firstOf, if_neg hne, if_neg ht]

theorem firstOf_subset {universe_ : List String} (hfirst : ∀ n, first.of n ⊆ universe_)
    (hepsilon : epsilon ∈ universe_) {symbols : List String} (hsymbols : symbols ⊆ universe_) :
    firstOf nonterminals first symbols ⊆ universe_ := by
  induction symbols using symbols_induction nonterminals with
  | nil => simpa [firstOf] using hepsilon
  | vanishing rest ih =>
    rw [firstOf_epsilon]
    exact ih (List.cons_subset.mp hsymbols).2
  | nonterminal n rest hn hne ih =>
    -- the symbols of the nonterminal itself, and those behind it if it can vanish
    intro t ht
    rcases (mem_firstOf_nonterminal hn hne).mp ht with ⟨ht, _⟩ | ⟨_, ht⟩
    · exact hfirst n ht
    · exact ih (List.cons_subset.mp hsymbols).2 ht
  | terminal t rest ht hne _ =>
    rw [firstOf_terminal ht hne]
    simpa using (List.cons_subset.mp hsymbols).1

end

namespace Grammar

variable {g : Grammar}

/-! ## The fixed point -/

/-- All symbols that the computed sets can hold. -/
def symbols (g : Grammar) : List String :=
  g.productions.flatMap Production.rhs ++ [epsilon, endMark]

theorem growth_eq (g : Grammar) : g.growth = g.nonterminals.length * g.symbols.length + 1 := by
  simp [growth, symbols]

theorem rhs_subset_symbols {p : Production} (hp : p ∈ g.productions) : p.rhs ⊆ g.symbols := by
  intro s hs
  exact List.mem_append_left _ (List.mem_flatMap.mpr ⟨p, hp, hs⟩)

theorem epsilon_mem_symbols (g : Grammar) : epsilon ∈ g.symbols := by
  simp [symbols]

theorem roundFirst_inflates (g : Grammar) : Inflates SymbolSets.size g.roundFirst := by
  apply Inflates.foldl
  intro p first
  exact SymbolSets.add_inflates p.lhs _ first

/-- A round keeps the sets within the symbols of the grammar. -/
theorem roundFirst_within {first : SymbolSets} (h : first.Within g.nonterminals g.symbols) :
    (g.roundFirst first).Within g.nonterminals g.symbols := by
  -- said of some of the rules, since the round is a fold over them
  suffices hall : ∀ ps ⊆ g.productions, ∀ first : SymbolSets,
      first.Within g.nonterminals g.symbols →
        (ps.foldl g.extendFirst first).Within g.nonterminals g.symbols from
    hall _ (List.Subset.refl _) first h
  intro ps hps
  induction ps with
  | nil => exact fun first h => h
  | cons p ps ih =>
    rcases List.cons_subset.mp hps with ⟨hp, hps⟩
    intro first h
    have hnew : firstOf g.nonterminals first p.rhs ⊆ g.symbols :=
      firstOf_subset h.of_subset g.epsilon_mem_symbols (rhs_subset_symbols hp)
    exact ih hps _ (h.add p.lhs hnew)

theorem first_within (g : Grammar) : g.first.Within g.nonterminals g.symbols :=
  settle_inv (SymbolSets.Within g.nonterminals g.symbols) (fun _ => roundFirst_within) _ .empty

/-- The rounds come to an end, and the FIRST sets are where they do. -/
theorem first_settles (g : Grammar) :
    Settles g.roundFirst (.empty g.nonterminals) g.first := by
  have hbound : g.nonterminals.length * g.symbols.length <
      SymbolSets.size (.empty g.nonterminals) + g.growth := by
    rw [growth_eq]
    omega
  unfold first
  exact settles_settle (SymbolSets.Within g.nonterminals g.symbols) g.roundFirst_inflates
    (fun _ => roundFirst_within) (fun _ h => h.size_le) SymbolSets.Within.empty hbound

/-- The FIRST sets are stable: a further round changes nothing. -/
theorem roundFirst_first (g : Grammar) : g.roundFirst g.first = g.first :=
  g.first_settles.fixed

/-- What a right side can start with is in the set of the left side. -/
theorem mem_first_of_rule (hg : g.Declared) {p : Production} (hp : p ∈ g.productions)
    {s : String} (hs : s ∈ firstOf g.nonterminals g.first p.word) : s ∈ g.first.of p.lhs := by
  have hstep : ∀ q, Inflates SymbolSets.size fun first => g.extendFirst first q :=
    fun q first => SymbolSets.add_inflates q.lhs _ first
  have hfixed : g.extendFirst g.first p = g.first :=
    Inflates.foldl_fixed hstep g.roundFirst_first p hp
  have hkey : p.lhs ∈ g.first.keys := by
    rw [g.first_within.keys_eq]
    exact hg.lhs_mem p hp
  rw [Production.word, firstOf_spell] at hs
  exact SymbolSets.mem_of_add_fixed hfixed hkey hs

/-! ## Soundness -/

theorem Vanishes.append {a b : List String} (ha : g.Vanishes a) (hb : g.Vanishes b) :
    g.Vanishes (a ++ b) := by
  induction ha with
  | nil => exact hb
  | rule hp below _ _ ih => exact .rule hp below ih

theorem Opens.append {t : String} {a : List String} (ha : g.Opens t a) (b : List String) :
    g.Opens t (a ++ b) := by
  induction ha with
  | terminal ht form => exact .terminal ht _
  | rule hp below form => exact .rule hp below _
  | skip gone _ ih => exact .skip gone ih

/-- The string can start with the symbol; `ε` stands for its being able to vanish. -/
def Starts (g : Grammar) (s : String) (form : List String) : Prop :=
  if s = epsilon then g.Vanishes form else g.Opens s form

theorem starts_epsilon {form : List String} : g.Starts epsilon form ↔ g.Vanishes form := by
  simp [Starts]

theorem starts_ne {s : String} (h : s ≠ epsilon) {form : List String} :
    g.Starts s form ↔ g.Opens s form := by
  simp [Starts, h]

/-- Every symbol in the set of a nonterminal is one that it can start with. -/
def SoundFirst (g : Grammar) (first : SymbolSets) : Prop :=
  ∀ n s, s ∈ first.of n → g.Starts s [n]

theorem SoundFirst.firstOf {first : SymbolSets} (h : g.SoundFirst first) {form : List String}
    (hform : epsilon ∉ form) {s : String} (hs : s ∈ firstOf g.nonterminals first form) :
    g.Starts s form := by
  -- FIRST looks at the rest of the string only behind symbols that can vanish
  induction form using symbols_induction g.nonterminals with
  | nil =>
    have hs : s = epsilon := by simpa [PrintfLint.firstOf] using hs
    rw [hs, starts_epsilon]
    exact .nil
  | vanishing rest _ => exact absurd List.mem_cons_self hform
  | nonterminal n rest hn hne ih =>
    rcases (mem_firstOf_nonterminal hn hne).mp hs with ⟨hs, hsne⟩ | ⟨hgone, hs⟩
    · have hopens := (starts_ne hsne).mp (h n s hs)
      exact (starts_ne hsne).mpr (hopens.append rest)
    · have hgone : g.Vanishes [n] := starts_epsilon.mp (h n epsilon hgone)
      have hstarts := ih (List.not_mem_of_not_mem_cons hform) hs
      by_cases hsne : s = epsilon
      · rw [hsne, starts_epsilon] at hstarts ⊢
        exact hgone.append hstarts
      · rw [starts_ne hsne] at hstarts ⊢
        exact .skip hgone hstarts
  | terminal t rest ht hne _ =>
    rw [firstOf_terminal ht hne, List.mem_singleton] at hs
    rw [hs, starts_ne hne]
    exact .terminal ht rest

theorem SoundFirst.extend {first : SymbolSets} (h : g.SoundFirst first) {p : Production}
    (hp : p ∈ g.productions) : g.SoundFirst (g.extendFirst first p) := by
  intro n s hs
  -- what was there before is sound, and what is added starts the word of the rule
  rcases SymbolSets.mem_of_add.mp hs with hs | ⟨rfl, _, hs⟩
  · exact h n s hs
  · rw [← firstOf_spell] at hs
    have hstarts := h.firstOf (epsilon_notMem_word p) hs
    by_cases hne : s = epsilon
    · rw [hne, starts_epsilon] at hstarts ⊢
      exact .rule hp hstarts .nil
    · rw [starts_ne hne] at hstarts ⊢
      exact .rule hp hstarts []

theorem soundFirst_first (g : Grammar) : g.SoundFirst g.first := by
  have hround : ∀ first, g.SoundFirst first → g.SoundFirst (g.roundFirst first) := by
    intro first h
    exact List.foldlRecOn g.productions g.extendFirst h fun _ h _ hp => h.extend hp
  refine settle_inv g.SoundFirst hround _ ?_
  intro n s hs
  rw [SymbolSets.of_empty] at hs
  cases hs

/-! ## Completeness -/

theorem Vanishes.epsilon_mem (hg : g.Declared) {form : List String} (h : g.Vanishes form) :
    epsilon ∈ firstOf g.nonterminals g.first form := by
  -- what a rule writes has been taken in by the set of its left side
  induction h with
  | nil => exact List.mem_singleton_self epsilon
  | rule hp _ _ ihbelow ihrest =>
    have hn := hg.lhs_mem _ hp
    exact (mem_firstOf_nonterminal hn (hg.ne_epsilon hn)).mpr
      (.inr ⟨mem_first_of_rule hg hp ihbelow, ihrest⟩)

/-- A nonterminal that can vanish has `ε` in its set. -/
theorem epsilon_mem_first_of (hg : g.Declared) {n : String} (h : g.Vanishes [n]) :
    n ∈ g.nonterminals ∧ epsilon ∈ g.first.of n := by
  cases h with
  | rule hp below _ => exact ⟨hg.lhs_mem _ hp, mem_first_of_rule hg hp (below.epsilon_mem hg)⟩

theorem Opens.mem_firstOf (hg : g.Declared) {t : String} (hne : t ≠ epsilon)
    {form : List String} (h : g.Opens t form) : t ∈ firstOf g.nonterminals g.first form := by
  -- by what the string starts with; the sets have settled, so they hold what a rule passes on
  induction h with
  | terminal ht form =>
    rw [firstOf_terminal ht hne]
    exact List.mem_singleton_self t
  | rule hp _ form ih =>
    have hn := hg.lhs_mem _ hp
    exact (mem_firstOf_nonterminal hn (hg.ne_epsilon hn)).mpr
      (.inl ⟨mem_first_of_rule hg hp ih, hne⟩)
  | skip gone _ ih =>
    rcases epsilon_mem_first_of hg gone with ⟨hn, hgone⟩
    exact (mem_firstOf_nonterminal hn (hg.ne_epsilon hn)).mpr (.inr ⟨hgone, ih⟩)

/-- FIRST of a string holds `ε` if the string can vanish. -/
theorem epsilon_mem_firstOf (hg : g.Declared) {form : List String} (hform : epsilon ∉ form) :
    epsilon ∈ firstOf g.nonterminals g.first form ↔ g.Vanishes form := by
  constructor
  · intro h
    exact starts_epsilon.mp (g.soundFirst_first.firstOf hform h)
  · intro h
    exact h.epsilon_mem hg

/-- FIRST of a string holds the terminals that the string can start with. -/
theorem mem_firstOf (hg : g.Declared) {form : List String} (hform : epsilon ∉ form) {t : String}
    (hne : t ≠ epsilon) : t ∈ firstOf g.nonterminals g.first form ↔ g.Opens t form := by
  constructor
  · intro h
    exact (starts_ne hne).mp (g.soundFirst_first.firstOf hform h)
  · intro h
    exact h.mem_firstOf hg hne

end Grammar

end PrintfLint
