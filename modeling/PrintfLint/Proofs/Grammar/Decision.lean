import PrintfLint.Proofs.Grammar.Machine
import PrintfLint.Proofs.Grammar.Printf

/-!
# PrintfLint.Proofs.Grammar.Decision — recognition decides the language

For a grammar without conflicts, the stack machine ends on every input, and accepts exactly the
strings that the grammar generates.

* `reaches_of_vanishes`, `reaches_of_opens` — before a lookahead, the machine makes away with what
  can vanish, and uncovers the lookahead in what can start with it;
* `halts` — so each lookahead is read or refused, or a symbol leaves the stack;
* `reaches_of_yields` — the machine follows every tree;
* `yields_of_accepts` — and what it accepts has a tree (also where there are conflicts).

The machine finds the right rule since no other asks for the lookahead. What a rule writes satisfies
`Adjacent` and `Before`, which say that the FOLLOW sets know what stands behind a nonterminal.
-/

namespace PrintfLint.Grammar

variable {g : Grammar}

namespace Marked

theorem analyse?_eq (hg : g.Marked) : g.analyse? = .ok g.analyse :=
  analyse?_of_lhs_mem hg.lhs_mem hg.start_mem

/-- An expansion pushes what the rule writes. -/
theorem pushed_eq_word (hg : g.Marked) {p : Production} (hp : p ∈ g.productions) :
    p.pushed = p.word := by
  by_cases hepsilon : epsilon ∈ p.rhs
  · -- the empty string is written as a lone epsilon, and nothing is pushed
    have hrhs := hg.epsilon_alone p hp hepsilon
    simp [Production.pushed, Production.isEpsilon, Production.word, spell, hrhs]
  · -- with no epsilon in it, the right side is pushed as it is
    have hword : p.word = p.rhs := by
      refine List.filter_eq_self.mpr ?_
      intro s hs
      have hne : s ≠ epsilon := fun heq => hepsilon (heq ▸ hs)
      simpa using hne
    have hrhs : p.rhs ≠ [epsilon] := by
      intro heq
      rw [heq] at hepsilon
      exact hepsilon (List.mem_singleton_self epsilon)
    rw [hword]
    by_cases hnil : p.rhs = []
    · simp [Production.pushed, Production.isEpsilon, hnil]
    · simp [Production.pushed, Production.isEpsilon, hnil, hrhs]

theorem endMark_notMem_word (hg : g.Marked) {p : Production} (hp : p ∈ g.productions) :
    endMark ∉ p.word := by
  intro h
  exact hg.endMark_notMem_rhs p hp (mem_spell.mp h).1

theorem rulesOf (hg : g.Marked) : g.analyse.RulesOf := by
  intro n t p h
  exact (rule?_analyse hg.toDeclared h).1

end Marked

/-! ## What stands behind a nonterminal -/

/-- Every terminal that the rest of the string can start with comes after the nonterminal. -/
def Adjacent (g : Grammar) (form : List String) : Prop :=
  ∀ a n b, form = a ++ n :: b → n ∈ g.nonterminals →
    ∀ t, t ≠ epsilon → g.Opens t b → t ∈ g.follows.of n

/-- A symbol that comes after the string comes after every nonterminal whose rest can vanish. -/
def Before (g : Grammar) (t : String) (form : List String) : Prop :=
  ∀ a n b, form = a ++ n :: b → n ∈ g.nonterminals → g.Vanishes b → t ∈ g.follows.of n

theorem Adjacent.tail {s : String} {form : List String} (h : g.Adjacent (s :: form)) :
    g.Adjacent form := by
  rintro a n b rfl
  exact h (s :: a) n b rfl

theorem Before.tail {t s : String} {form : List String} (h : g.Before t (s :: form)) :
    g.Before t form := by
  rintro a n b rfl
  exact h (s :: a) n b rfl

theorem adjacent_word (hg : g.Declared) {p : Production} (hp : p ∈ g.productions) :
    g.Adjacent p.word := by
  intro a n b hword hn t hne ht
  exact mem_follows_of_opens hg hp hword hn hne ht

theorem before_word (hg : g.Declared) {p : Production} (hp : p ∈ g.productions) {t : String}
    (ht : t ∈ g.follows.of p.lhs) : g.Before t p.word := by
  intro a n b hword hn hb
  exact mem_follows_of_vanishes hg hp hword hn hb ht

theorem adjacent_singleton (n : String) : g.Adjacent [n] := by
  intro a m b h _ t _ ht
  rcases eq_of_singleton_eq h with ⟨_, rfl⟩
  cases ht

theorem before_singleton {t n : String} (h : t ∈ g.follows.of n) : g.Before t [n] := by
  intro a m b heq _ _
  rcases eq_of_singleton_eq heq with ⟨rfl, _⟩
  exact h

/-! ## Runs before one lookahead -/

/-- A terminal on the stack is read or refused. -/
theorem halts_of_terminal {t : String} (ht : t ∉ g.nonterminals) {input : List String}
    (hrest : ∀ s rest, input = s :: rest → ∀ stack,
      Config.Halts g.nonterminals g.analyse.table ⟨stack, rest⟩) (below : List String) :
    Config.Halts g.nonterminals g.analyse.table ⟨t :: below, input⟩ := by
  -- the symbol is the lookahead, or the run ends with a mismatch
  by_cases hlookahead : t = input.headD endMark
  · by_cases hend : t = endMark
    · -- the end mark on both sides ends the run too
      subst hend
      exact Config.halts_of_accept (Config.step_accept ht hlookahead.symm)
    · cases input with
      | nil => exact absurd hlookahead hend
      | cons s rest =>
        have hts : t = s := hlookahead
        subst hts
        exact (hrest t rest rfl below).of_moves (.read ht hend)
  · exact Config.halts_of_refuse (Config.step_mismatch ht hlookahead)

section

variable (hg : g.WellFormed) (hfree : g.analyse.conflicts = [])

include hg hfree

/-- An expansion by the rule that the lookahead asks for. -/
theorem moves_of_asks {p : Production} (hp : p ∈ g.productions) {input : List String}
    (hasks : g.Asks (input.headD endMark) p) (below : List String) :
    Config.Moves g.nonterminals g.analyse.table ⟨p.lhs :: below, input⟩
      ⟨p.word ++ below, input⟩ := by
  have hrule := rule?_of_asks hg.toDeclared hfree hp hasks
  rw [← hg.marked.pushed_eq_word hp]
  exact .expand (hg.lhs_mem p hp) hrule

/-- The machine makes away with what can vanish before the lookahead. -/
theorem reaches_of_vanishes {form : List String} (h : g.Vanishes form) {input : List String}
    (hbefore : g.Before (input.headD endMark) form) (below : List String) :
    Config.Reaches g.nonterminals g.analyse.table ⟨form ++ below, input⟩ ⟨below, input⟩ := by
  induction h generalizing below with
  | nil => exact .refl
  | @rule p form hp hword hform ihword ihform =>
    have ht := hbefore [] p.lhs form rfl (hg.lhs_mem p hp) hform
    have hmove := moves_of_asks hg hfree hp (.inr ⟨hword, ht⟩) (form ++ below)
    have hgone := ihword (before_word hg.toDeclared hp ht) (form ++ below)
    exact (Relation.ReflTransGen.head hmove hgone).trans (ihform hbefore.tail below)

/-- The machine uncovers the lookahead in what can start with it. -/
theorem reaches_of_opens {t : String} {form : List String} (h : g.Opens t form)
    (hne : t ≠ epsilon) {input : List String} (hinput : input.headD endMark = t)
    (hadjacent : g.Adjacent form) (below : List String) :
    ∃ above, Config.Reaches g.nonterminals g.analyse.table ⟨form ++ below, input⟩
      ⟨t :: above ++ below, input⟩ := by
  -- by the derivation: the symbol is in front already, or a rule brings it there, or what stands
  -- before it vanishes
  induction h generalizing below with
  | terminal _ form => exact ⟨form, .refl⟩
  | @rule p hp hword form ih =>
    -- the lookahead is what the rule starts with, so it asks for the rule
    have hasks : g.Asks (input.headD endMark) p := .inl ⟨by rwa [hinput], by rwa [hinput]⟩
    have hmove := moves_of_asks hg hfree hp hasks (form ++ below)
    rcases ih (adjacent_word hg.toDeclared hp) (form ++ below) with ⟨above, hrest⟩
    refine ⟨above ++ form, ?_⟩
    rw [← List.cons_append, List.append_assoc]
    exact Relation.ReflTransGen.head hmove hrest
  | @skip s form hgone hopens ih =>
    -- the lookahead follows the vanishing symbol, since the form has them next to each other
    rcases epsilon_mem_first_of hg.toDeclared hgone with ⟨hs, _⟩
    have ht := hadjacent [] s form rfl hs t hne hopens
    have hbefore : g.Before (input.headD endMark) [s] := by
      rw [hinput]
      exact before_singleton ht
    have hskip := reaches_of_vanishes hg hfree hgone hbefore (form ++ below)
    rcases ih hadjacent.tail below with ⟨above, hrest⟩
    exact ⟨above, hskip.trans hrest⟩

/-! ## Every run ends -/

theorem halts_of_rest {input : List String}
    (hrest : ∀ s rest, input = s :: rest → ∀ stack,
      Config.Halts g.nonterminals g.analyse.table ⟨stack, rest⟩) (stack : List String) :
    Config.Halts g.nonterminals g.analyse.table ⟨stack, input⟩ := by
  induction stack with
  | nil => exact Config.halts_of_refuse (Config.step_nil input)
  | cons top below ih =>
    by_cases hn : top ∈ g.nonterminals
    · cases hrule : g.analyse.table.rule? top (input.headD endMark) with
      | none => exact Config.halts_of_refuse (Config.step_noRule hn hrule)
      | some p =>
        rcases rule?_analyse hg.toDeclared hrule with ⟨hp, rfl, hasks⟩
        have hmove := moves_of_asks hg hfree hp hasks below
        rcases hasks with ⟨hopens, hne⟩ | ⟨hvanishes, ht⟩
        · -- the lookahead comes to the top of the stack, and is read there
          obtain ⟨above, hreach⟩ := reaches_of_opens hg hfree hopens hne rfl
            (adjacent_word hg.toDeclared hp) below
          have hread := halts_of_terminal hopens.notMem hrest (above ++ below)
          exact (Config.Halts.of_reaches hreach hread).of_moves hmove
        · -- the nonterminal leaves the stack
          have hreach := reaches_of_vanishes hg hfree hvanishes
            (before_word hg.toDeclared hp ht) below
          exact (ih.of_reaches hreach).of_moves hmove
    · exact halts_of_terminal hn hrest below

/-- Without conflicts, every run ends. -/
theorem halts (stack input : List String) :
    Config.Halts g.nonterminals g.analyse.table ⟨stack, input⟩ := by
  induction input generalizing stack with
  | nil => exact halts_of_rest hg hfree (by simp) stack
  | cons t rest ih =>
    refine halts_of_rest hg hfree ?_ stack
    rintro _ _ ⟨⟩
    exact ih

/-! ## Every tree is followed -/

theorem reaches_of_yields {form word : List String} (h : g.Yields form word)
    (hend : endMark ∉ word) (hform : epsilon ∉ form) (hadjacent : g.Adjacent form)
    {rest : List String} (hbefore : g.Before (rest.headD endMark) form) (below : List String) :
    Config.Reaches g.nonterminals g.analyse.table ⟨form ++ below, word ++ rest⟩
      ⟨below, rest⟩ := by
  -- the rest of the input and of the stack vary, since a tree is followed by its neighbours
  induction h generalizing below rest with
  | nil => exact .refl
  | @terminal s form word hs _ ih =>
    rcases List.ne_and_not_mem_of_not_mem_cons hend with ⟨hne, hend⟩
    rcases List.ne_and_not_mem_of_not_mem_cons hform with ⟨_, hform⟩
    have hmove : Config.Moves g.nonterminals g.analyse.table
        ⟨s :: (form ++ below), s :: (word ++ rest)⟩ ⟨form ++ below, word ++ rest⟩ :=
      .read hs hne.symm
    exact .head hmove (ih hend hform hadjacent.tail hbefore.tail below)
  | @rule p form u v hp hu hv ihu ihv =>
    obtain ⟨hendu, hendv⟩ : endMark ∉ u ∧ endMark ∉ v := by simpa using hend
    rcases List.ne_and_not_mem_of_not_mem_cons hform with ⟨_, hform⟩
    have hn := hg.lhs_mem p hp
    have hfollow : (v ++ rest).headD endMark ∈ g.follows.of p.lhs := by
      cases v with
      | nil => exact hbefore [] p.lhs form rfl hn (hv.vanishes rfl)
      | cons y v =>
        have hopens := hv.opens rfl
        exact hadjacent [] p.lhs form rfl hn y (hopens.ne_epsilon hform) hopens
    have hasks := asks_of_yields hu hfollow
    have hmove := moves_of_asks hg hfree hp hasks (form ++ below)
    have hword := ihu hendu (epsilon_notMem_word p) (adjacent_word hg.toDeclared hp)
      (before_word hg.toDeclared hp hfollow) (form ++ below)
    rw [List.append_assoc]
    exact (Relation.ReflTransGen.head hmove hword).trans
      (ihv hendv hform hadjacent.tail hbefore.tail below)

end

/-! ## Every accepted input has a tree -/

theorem yields_of_accepts (hg : g.Marked) {limit : ℕ} {form word : List String}
    {r : Recognition}
    (hrun : Config.run g.nonterminals g.analyse.table limit
      ⟨form ++ [endMark], word ++ [endMark]⟩ = some r)
    (haccepted : r.accepted = true) (hform : endMark ∉ form) (hword : endMark ∉ word) :
    g.Yields form word := by
  -- read backwards, a move puts a rule or a terminal in front of a tree that is there already
  induction limit generalizing form word r with
  | zero => cases hrun
  | succ limit ih =>
    have hnext : ∀ form' word', Config.Moves g.nonterminals g.analyse.table
        ⟨form ++ [endMark], word ++ [endMark]⟩ ⟨form' ++ [endMark], word' ++ [endMark]⟩ →
        endMark ∉ form' → endMark ∉ word' → g.Yields form' word' := by
      intro form' word' hmove hform' hword'
      rcases Config.run_of_moves hmove with ⟨action, hstep⟩
      rw [hstep] at hrun
      rcases Option.map_eq_some_iff.mp hrun with ⟨r', hr', rfl⟩
      exact ih hr' haccepted hform' hword'
    have hrefuse : ∀ e, Config.step g.nonterminals g.analyse.table
        ⟨form ++ [endMark], word ++ [endMark]⟩ ≠ .refuse e := by
      intro e hstep
      rw [Config.run, hstep] at hrun
      cases hrun
      cases haccepted
    cases form with
    | nil =>
      cases word with
      | nil => exact .nil
      | cons t word =>
        rcases List.ne_and_not_mem_of_not_mem_cons hword with ⟨hne, _⟩
        exact (hrefuse _ (Config.step_mismatch hg.endMark_notMem hne)).elim
    | cons s form =>
      rcases List.ne_and_not_mem_of_not_mem_cons hform with ⟨hs, hrest⟩
      by_cases hn : s ∈ g.nonterminals
      · cases hrule : g.analyse.table.rule? s ((word ++ [endMark]).headD endMark) with
        | none => exact (hrefuse _ (Config.step_noRule hn hrule)).elim
        | some p =>
          rcases rule?_analyse hg.toDeclared hrule with ⟨hp, rfl, _⟩
          have hmove : Config.Moves g.nonterminals g.analyse.table
              ⟨p.lhs :: (form ++ [endMark]), word ++ [endMark]⟩
              ⟨p.pushed ++ (form ++ [endMark]), word ++ [endMark]⟩ := .expand hn hrule
          rw [hg.pushed_eq_word hp, ← List.append_assoc] at hmove
          have hbelow : endMark ∉ p.word ++ form :=
            by simpa using ⟨hg.endMark_notMem_word hp, hrest⟩
          have hyields := hnext _ word hmove hbelow hword
          rcases yields_append.mp hyields with ⟨u, v, rfl, hu, hv⟩
          exact .rule hp hu hv
      · cases word with
        | nil => exact (hrefuse _ (Config.step_mismatch hn hs.symm)).elim
        | cons t word =>
          by_cases hst : s = t
          · subst hst
            rcases List.ne_and_not_mem_of_not_mem_cons hword with ⟨_, hword⟩
            exact .terminal hn (hnext form word (.read hn hs.symm) hrest hword)
          · exact (hrefuse _ (Config.step_mismatch hn hst)).elim

/-! ## The language -/

/-- The start of a run on an input without empty symbols. -/
theorem initial_eq {input : List String} (hempty : "" ∉ input) :
    g.analyse.initial input = ⟨[g.start] ++ [endMark], input ++ [endMark]⟩ := by
  have hkept : input.filter (fun s => s ≠ "") = input := by
    refine List.filter_eq_self.mpr ?_
    intro s hs
    have hne : s ≠ "" := fun heq => hempty (heq ▸ hs)
    simpa using hne
  rw [Analysis.initial, hkept]
  rfl

/-- The machine follows a tree on the start symbol up to the end mark. -/
theorem accepts_of_yields (hg : g.WellFormed) (hfree : g.analyse.conflicts = [])
    {input : List String} (hempty : "" ∉ input) (hend : endMark ∉ input)
    (h : g.Yields [g.start] input) :
    ∃ r, g.analyse.recognise input = some r ∧ r.accepted = true := by
  have hepsilon : epsilon ∉ [g.start] := by
    intro hmem
    exact hg.ne_epsilon hg.start_mem (List.mem_singleton.mp hmem).symm
  -- the start symbol is followed by the end mark
  have hbefore : g.Before ([endMark].headD endMark) [g.start] :=
    before_singleton (endMark_mem_follows hg.start_mem)
  have hreach : Config.Reaches g.nonterminals g.analyse.table (g.analyse.initial input)
      ⟨[endMark], [endMark]⟩ := by
    rw [initial_eq hempty]
    exact reaches_of_yields hg hfree h hend hepsilon (adjacent_singleton g.start) hbefore [endMark]
  have haccept : Config.step g.nonterminals g.analyse.table ⟨[endMark], [endMark]⟩ =
      .accept ⟨⟨[], []⟩, "match " ++ endMark⟩ := Config.step_accept hg.endMark_notMem rfl
  exact Analysis.recognise_of_accept hg.marked.rulesOf hreach haccept

/-- An analysis without conflicts decides the language of its grammar: on every input of ordinary
symbols the recognition ends, and accepts the strings that the start symbol derives. -/
theorem recognise_iff_generates (hg : g.WellFormed) :
    ∃ a, g.analyse? = .ok a ∧ (a.conflicts = [] → ∀ input : List String,
      "" ∉ input → endMark ∉ input →
        ∃ r, a.recognise input = some r ∧ (r.accepted = true ↔ g.Generates input)) := by
  refine ⟨g.analyse, hg.marked.analyse?_eq, ?_⟩
  intro hfree input hempty hend
  -- without conflicts every run ends, so that there is a result to speak of
  rcases halts hg hfree ([g.start] ++ [endMark]) (input ++ [endMark]) with ⟨limit, r, hrun⟩
  have hresult : g.analyse.recognise input =
      some { r with steps := ⟨g.analyse.initial input, "init"⟩ :: r.steps } := by
    rw [← initial_eq hempty] at hrun
    exact Analysis.recognise_of_run hg.marked.rulesOf hrun
  refine ⟨_, hresult, ?_⟩
  rw [generates_iff_yields]
  constructor
  · -- an accepted input is derived, because the moves of the machine are a leftmost derivation
    intro haccepted
    have hstart : endMark ∉ [g.start] := by
      intro hmem
      apply hg.endMark_notMem
      rw [List.mem_singleton.mp hmem]
      exact hg.start_mem
    exact yields_of_accepts hg.marked hrun haccepted hstart hend
  · -- the machine follows a tree, and its result is the only one
    intro hyields
    rcases accepts_of_yields hg hfree hempty hend hyields with ⟨r', hr', haccepted⟩
    rw [hresult] at hr'
    rw [Option.some.inj hr']
    exact haccepted

/-- A statement without arguments is generated. -/
theorem printf_generates_literal : printf.Generates ["printf", "(", "str", ")", ";"] := by
  have hterminal : ∀ {s : String} {form word : List String}, s ∉ printf.nonterminals →
      printf.Yields form word → printf.Yields (s :: form) (s :: word) := .terminal
  -- from the right end of the statement to the left
  have htail : printf.Yields ["body_tail"] [] :=
    .rule (p := ⟨"body_tail", [epsilon]⟩) (by decide) .nil .nil
  have hbody : printf.Yields ["printf_body"] ["str"] :=
    .rule (p := ⟨"printf_body", ["str", "body_tail"]⟩) (by decide)
      (hterminal (by decide) htail) .nil
  have hright : printf.Yields [")", ";"] [")", ";"] :=
    hterminal (by decide) (hterminal (by decide) .nil)
  have hwhole : printf.Yields ["printf", "(", "printf_body", ")", ";"]
      ["printf", "(", "str", ")", ";"] :=
    hterminal (by decide) (hterminal (by decide) (hbody.append hright))
  rw [generates_iff_yields]
  exact .rule (p := ⟨"printf_expr", ["printf", "(", "printf_body", ")", ";"]⟩) (by decide)
    hwhole .nil

/-- The grammar of statements is decided by its table; a statement without arguments is
accepted. -/
theorem recognise_printf_literal : printf.WellFormed ∧ ∃ a, printf.analyse? = .ok a ∧
    a.conflicts = [] ∧ ∃ r, a.recognise ["printf", "(", "str", ")", ";"] = some r ∧
      r.accepted = true := by
  rcases recognise_iff_generates printf_wellFormed with ⟨a, ha, hdecides⟩
  have hsame : a = statementAnalysis := by
    rw [printf_wellFormed.marked.analyse?_eq] at ha
    exact (Except.ok.inj ha).symm
  -- that the table has no conflicts is known of this grammar, and then the theorem applies
  have hfree : a.conflicts = [] := by
    rw [hsame]
    exact statementAnalysis_conflicts
  obtain ⟨r, hr, haccepted⟩ :=
    hdecides hfree ["printf", "(", "str", ")", ";"] (by decide) (by decide)
  exact ⟨printf_wellFormed, a, ha, hfree, r, hr, haccepted.mpr printf_generates_literal⟩

end PrintfLint.Grammar
