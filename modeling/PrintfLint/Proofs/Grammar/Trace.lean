import PrintfLint.Proofs.Grammar.Decision

/-!
# PrintfLint.Proofs.Grammar.Trace — a trace is a leftmost derivation

* `Event` — what the entries of a trace stand for: a rule that is applied, or a symbol that is read;
* `Config.Live` — the end mark is at the bottom of the stack and at the end of the input, and
  nowhere else;
* `step_of_live` — what a step can do in such a state;
* `Follows` — the events so far account for the input that is left and for the stack;
* `recognise_explained` — every trace consists of such events, also where the table has conflicts.

The table matters in one point only: the rule that it gives for a nonterminal is a rule of this
nonterminal. Which one it is decides where the run goes, but not that it is a derivation.
-/

namespace PrintfLint

/-! ## Events -/

/-- What a step of the machine does. -/
inductive Event where
  | expand (p : Production)
  | read (t : String)

namespace Event

/-- The entry for the event in a trace. -/
def action : Event → String
  | expand p => p.render
  | read t => "match " ++ t

/-- The rule that is applied. -/
def rule? : Event → Option Production
  | expand p => some p
  | read _ => none

/-- The symbol that is read. -/
def symbol? : Event → Option String
  | expand _ => none
  | read t => some t

/-- The rules that are applied, one after the other. -/
def rules (events : List Event) : List Production :=
  events.filterMap rule?

/-- The symbols that are read, one after the other. -/
def reads (events : List Event) : List String :=
  events.filterMap symbol?

section

variable (events : List Event)

@[simp] theorem rules_expand (p : Production) :
    rules (events ++ [expand p]) = rules events ++ [p] := by
  simp [rules, rule?]

@[simp] theorem rules_read (t : String) : rules (events ++ [read t]) = rules events := by
  simp [rules, rule?]

@[simp] theorem reads_expand (p : Production) : reads (events ++ [expand p]) = reads events := by
  simp [reads, symbol?]

@[simp] theorem reads_read (t : String) :
    reads (events ++ [read t]) = reads events ++ [t] := by
  simp [reads, symbol?]

end

/-- The event takes the machine from one state to another. -/
inductive Leads (nonterminals : List String) (table : Table) : Event → Config → Config → Prop where
  | expand {n : String} {below input : List String} {p : Production} (hn : n ∈ nonterminals)
      (hrule : table.rule? n (input.headD endMark) = some p) :
      Leads nonterminals table (expand p) ⟨n :: below, input⟩ ⟨p.pushed ++ below, input⟩
  | read {t : String} {below input : List String} (ht : t ∉ nonterminals) :
      Leads nonterminals table (read t) ⟨t :: below, t :: input⟩ ⟨below, input⟩

end Event

/-! ## States before the end mark is read -/

/-- The end mark stands below everything else on the stack and behind everything else of the input.
-/
def Config.Live (c : Config) : Prop :=
  ∃ form word, c = ⟨form ++ [endMark], word ++ [endMark]⟩ ∧ endMark ∉ form ∧ endMark ∉ word

theorem Config.Live.ne_nil {c : Config} (h : c.Live) : c.stack ≠ [] ∧ c.input ≠ [] := by
  rcases h with ⟨form, word, rfl, _, _⟩
  simp

/-- How a recognition is accounted for. The entries of its trace stand for events. At each entry,
what was read before and what is left make up the input, and what was read before and the stack are
what a leftmost derivation by the rules applied before comes to. The stack never runs out; an input
that is accepted is generated, and nothing is left of it. -/
structure Recognition.Explained (g : Grammar) (input : List String) (r : Recognition)
    (events : List Event) : Prop where
  actions_eq : r.steps.map TraceStep.action = "init" :: events.map Event.action
  input_eq : ∀ (i : ℕ) step, r.steps[i]? = some step →
    Event.reads (events.take i) ++ step.config.input = input ++ [endMark]
  leftmost : ∀ (i : ℕ) step, r.steps[i]? = some step →
    g.Leftmost [g.start, endMark] (Event.rules (events.take i))
      (Event.reads (events.take i) ++ step.config.stack)
  not_exhausted : r.refusal? ≠ some .exhausted
  generates : r.accepted = true → g.Generates input
  last_eq : r.accepted = true → r.steps.getLast?.map TraceStep.config = some ⟨[], []⟩

namespace Grammar

variable {g : Grammar}

/-- What a step can do before the end mark is read: it goes on, reads the end mark as the last
symbol, or refuses, but not because the stack is empty. -/
theorem step_of_live (hg : g.Marked) {c : Config} (hc : c.Live) :
    (∃ (event : Event) (c' : Config),
      c.step g.nonterminals g.analyse.table = .next ⟨c', event.action⟩ ∧
      event.Leads g.nonterminals g.analyse.table c c' ∧ c'.Live) ∨
    (c.step g.nonterminals g.analyse.table = .accept ⟨⟨[], []⟩, (Event.read endMark).action⟩ ∧
      (Event.read endMark).Leads g.nonterminals g.analyse.table c ⟨[], []⟩) ∨
    ∃ e, c.step g.nonterminals g.analyse.table = .refuse e ∧ e ≠ .exhausted := by
  rcases hc with ⟨form, word, rfl, hform, hword⟩
  cases form with
  | nil =>
    -- the end mark is on top, so it is read if it comes next
    cases word with
    | nil => exact .inr (.inl ⟨Config.step_accept hg.endMark_notMem rfl, .read hg.endMark_notMem⟩)
    | cons t word =>
      rcases List.ne_and_not_mem_of_not_mem_cons hword with ⟨hne, _⟩
      exact .inr (.inr ⟨_, Config.step_mismatch hg.endMark_notMem hne, nofun⟩)
  | cons s form =>
    rcases List.ne_and_not_mem_of_not_mem_cons hform with ⟨hs, hrest⟩
    by_cases hn : s ∈ g.nonterminals
    · cases hrule : g.analyse.table.rule? s ((word ++ [endMark]).headD endMark) with
      | none => exact .inr (.inr ⟨_, Config.step_noRule hn hrule, nofun⟩)
      | some p =>
        -- what the rule pushes is its word, which has no end mark
        have hp := (rule?_analyse hg.toDeclared hrule).1
        have hbelow : endMark ∉ p.pushed ++ form := by
          rw [hg.pushed_eq_word hp]
          simpa using ⟨hg.endMark_notMem_word hp, hrest⟩
        refine .inl ⟨.expand p, _, Config.step_expand hn hrule, .expand hn hrule, ?_⟩
        exact ⟨p.pushed ++ form, word, by simp, hbelow, hword⟩
    · cases word with
      | nil => exact .inr (.inr ⟨_, Config.step_mismatch hn hs.symm, nofun⟩)
      | cons t word =>
        rcases List.ne_and_not_mem_of_not_mem_cons hword with ⟨_, hleft⟩
        by_cases hst : s = t
        · subst hst
          refine .inl ⟨.read s, _, Config.step_read hn hs.symm, .read hn, ?_⟩
          exact ⟨form, word, rfl, hrest, hleft⟩
        · exact .inr (.inr ⟨_, Config.step_mismatch hn hst, nofun⟩)

/-- A move leaves the end mark where it is. -/
theorem live_of_moves (hg : g.Marked) {c c' : Config} (hc : c.Live)
    (h : Config.Moves g.nonterminals g.analyse.table c c') : c'.Live := by
  rcases Config.step_of_moves h with ⟨action, hstep⟩
  rcases step_of_live hg hc with ⟨event, d, hnext, _, hlive⟩ | ⟨haccept, _⟩ | ⟨e, hrefuse, _⟩
  · rw [hstep] at hnext
    cases hnext
    exact hlive
  · rw [hstep] at haccept
    cases haccept
  · rw [hstep] at hrefuse
    cases hrefuse

theorem live_of_reaches (hg : g.Marked) {c c' : Config} (hc : c.Live)
    (h : Config.Reaches g.nonterminals g.analyse.table c c') : c'.Live := by
  induction h with
  | refl => exact hc
  | tail _ hmove ih => exact live_of_moves hg ih hmove

theorem Marked.endMark_notMem_start (hg : g.Marked) : endMark ∉ [g.start] := by
  intro hmem
  apply hg.endMark_notMem
  rw [List.mem_singleton.mp hmem]
  exact hg.start_mem

theorem endMark_notMem_filter {input : List String} (hend : endMark ∉ input) :
    endMark ∉ input.filter fun s => s ≠ "" :=
  fun hmem => hend (List.mem_filter.mp hmem).1

theorem live_initial (hg : g.Marked) {input : List String} (hend : endMark ∉ input) :
    (g.analyse.initial input).Live :=
  ⟨[g.start], _, rfl, hg.endMark_notMem_start, endMark_notMem_filter hend⟩

/-! ## The derivation behind a trace -/

/-- The events account for a state. What was read and what is left make up the input, and what was
read and the stack have been derived by the rules that were applied. -/
structure Follows (g : Grammar) (input : List String) (events : List Event) (c : Config) :
    Prop where
  input_eq : Event.reads events ++ c.input = input ++ [endMark]
  terminals : ∀ s ∈ Event.reads events, s ∉ g.nonterminals
  leftmost : g.Leftmost [g.start, endMark] (Event.rules events) (Event.reads events ++ c.stack)

theorem follows_initial (input : List String) :
    g.Follows (input.filter fun s => s ≠ "") [] (g.analyse.initial input) where
  input_eq := rfl
  terminals := by simp [Event.reads]
  leftmost := .refl

/-- An expansion is a step of the derivation, and a reading moves a symbol from the stack to what
was read. -/
theorem Follows.step (hg : g.Marked) {input : List String} {events : List Event} {c c' : Config}
    (h : g.Follows input events c) {event : Event}
    (hevent : event.Leads g.nonterminals g.analyse.table c c') :
    g.Follows input (events ++ [event]) c' := by
  cases hevent with
  | @expand n below rest p hn hrule =>
    rcases rule?_analyse hg.toDeclared hrule with ⟨hp, rfl, _⟩
    -- the symbols that were read are terminals, so the one on top is the first nonterminal
    have hstep := RewritesFirst.rule hp h.terminals below
    rw [← hg.pushed_eq_word hp] at hstep
    constructor
    · simpa using h.input_eq
    · simpa using h.terminals
    · rw [Event.rules_expand, Event.reads_expand]
      exact .tail h.leftmost hstep
  | @read t below rest ht =>
    constructor
    · simpa using h.input_eq
    · rw [Event.reads_read, List.forall_mem_append, List.forall_mem_singleton]
      exact ⟨h.terminals, ht⟩
    · simpa using h.leftmost

/-- An entry in front does not change where a trace ends. -/
theorem last_config_cons {entry : TraceStep} {steps : List TraceStep} {c : Config}
    (h : steps.getLast?.map TraceStep.config = some c) :
    (entry :: steps).getLast?.map TraceStep.config = some c := by
  rcases Option.map_eq_some_iff.mp h with ⟨step, hstep, hconfig⟩
  rw [List.getLast?_cons, hstep, Option.getD_some, Option.map_some, hconfig]

/-- A run from a state that is accounted for stays so, entry by entry. -/
theorem run_follows (hg : g.Marked) {input : List String} {events : List Event} {limit : ℕ}
    {c : Config} {r : Recognition} (hc : c.Live) (h : g.Follows input events c)
    (hrun : c.run g.nonterminals g.analyse.table limit = some r) :
    r.refusal? ≠ some .exhausted ∧
      (r.accepted = true → r.steps.getLast?.map TraceStep.config = some ⟨[], []⟩) ∧
      ∃ more : List Event, r.steps.map TraceStep.action = more.map Event.action ∧
        ∀ (i : ℕ) step, r.steps[i]? = some step →
          g.Follows input (events ++ more.take (i + 1)) step.config := by
  -- by the steps that are left; the events that came before are those of the derivation so far
  induction limit generalizing c r events with
  | zero => cases hrun
  | succ limit ih =>
    rw [Config.run] at hrun
    -- an expansion or a reading, the end mark on both sides, or a refusal
    rcases step_of_live hg hc with ⟨event, c', hstep, hleads, hlive⟩ | ⟨hstep, hleads⟩ |
      ⟨e, hstep, hne⟩
    · rw [hstep] at hrun
      rcases Option.map_eq_some_iff.mp hrun with ⟨r', hr', rfl⟩
      obtain ⟨hne, hlast, more, hactions, hfollows⟩ := ih hlive (h.step hg hleads) hr'
      refine ⟨hne, fun haccepted => last_config_cons (hlast haccepted), event :: more,
        by simp [hactions], ?_⟩
      -- the first entry is this step, and the others are those of the rest of the run
      intro i step hi
      cases i with
      | zero =>
        cases hi
        simpa using h.step hg hleads
      | succ i => simpa using hfollows i step (by simpa using hi)
    · -- the run ends with one more event, the reading of the end mark
      rw [hstep] at hrun
      cases hrun
      refine ⟨by simp, fun _ => rfl, [.read endMark], rfl, ?_⟩
      intro i step hi
      cases i with
      | zero =>
        cases hi
        exact h.step hg hleads
      | succ i => simp at hi
    · -- a refusal adds no entry to the trace
      rw [hstep] at hrun
      cases hrun
      refine ⟨by simpa using hne, by simp [Recognition.accepted], [], rfl, ?_⟩
      intro i step hi
      simp at hi

/-- Every recognition that ends is a leftmost derivation, whether or not the table has conflicts. On
the way to any state, the stack and the input hold at least the end mark, so that nothing is read
from outside of the input. -/
theorem recognise_explained (hg : g.Marked) {input : List String} (hend : endMark ∉ input) :
    ∃ a, g.analyse? = .ok a ∧
      (∀ c, Config.Reaches a.grammar.nonterminals a.table (a.initial input) c →
        c.stack ≠ [] ∧ c.input ≠ []) ∧
      (Config.Halts a.grammar.nonterminals a.table (a.initial input) →
        ∃ r events, a.recognise input = some r ∧
          r.Explained g (input.filter fun s => s ≠ "") events) := by
  -- the invariant that carries the run: both stack and input end with the end mark
  have hlive := live_initial hg hend
  refine ⟨g.analyse, hg.analyse?_eq, fun c hc => (live_of_reaches hg hlive hc).ne_nil, ?_⟩
  rintro ⟨limit, r, hrun⟩
  obtain ⟨hne, hlast, events, hactions, hfollows⟩ :=
    run_follows hg hlive (follows_initial input) hrun
  -- the first entry is the start, before any event
  have hall : ∀ (i : ℕ) step, (⟨g.analyse.initial input, "init"⟩ :: r.steps)[i]? = some step →
      g.Follows (input.filter fun s => s ≠ "") (events.take i) step.config := by
    intro i step hi
    cases i with
    | zero =>
      cases hi
      exact follows_initial input
    | succ i => exact hfollows i step (by simpa using hi)
  refine ⟨_, events, Analysis.recognise_of_run hg.rulesOf hrun, ?_⟩
  constructor
  · simp [hactions]
  · exact fun i step hi => (hall i step hi).input_eq
  · exact fun i step hi => (hall i step hi).leftmost
  · exact hne
  · intro haccepted
    rw [generates_iff_yields]
    exact yields_of_accepts hg hrun haccepted hg.endMark_notMem_start (endMark_notMem_filter hend)
  · exact fun haccepted => last_config_cons (hlast haccepted)

/-- A grammar with two rules that the same lookahead asks for. -/
def undecided : Grammar where
  start := "S"
  nonterminals := ["S"]
  productions := [⟨"S", ["a", "S"]⟩, ⟨"S", ["a", "b"]⟩, ⟨"S", ["c"]⟩]

/-- The recognition by a table with conflicts is a leftmost derivation if it ends. -/
theorem recognise_undecided : undecided.Marked ∧ ∃ a, undecided.analyse? = .ok a ∧
    a.conflicts ≠ [] ∧ ∃ r events, a.recognise ["a", "c"] = some r ∧ r.accepted = true ∧
      r.Explained undecided ["a", "c"] events := by
  have hg : undecided.Marked := {
    lhs_mem := by decide
    epsilon_notMem := by decide
    start_mem := by decide
    endMark_notMem := by decide
    endMark_notMem_rhs := by decide
    epsilon_alone := by decide }
  have hend : endMark ∉ ["a", "c"] := by decide
  rcases recognise_explained hg hend with ⟨a, ha, _, hexplained⟩
  -- what there is, is the computed analysis, so its table and its run can be evaluated
  have hsame : a = undecided.analyse := by
    rw [hg.analyse?_eq] at ha
    exact (Except.ok.inj ha).symm
  have hconflicts : a.conflicts ≠ [] := by
    rw [hsame]
    decide +kernel
  have hhalts : Config.Halts a.grammar.nonterminals a.table (a.initial ["a", "c"]) := by
    have hsome : (Config.run undecided.nonterminals undecided.analyse.table 5
        (undecided.analyse.initial ["a", "c"])).isSome = true := by decide +kernel
    rw [hsame]
    exact ⟨5, Option.isSome_iff_exists.mp hsome⟩
  have haccepted : (a.recognise ["a", "c"]).map Recognition.accepted = some true := by
    rw [hsame]
    decide +kernel
  rcases hexplained hhalts with ⟨r, events, hr, hexplains⟩
  rw [hr] at haccepted
  exact ⟨hg, a, ha, hconflicts, r, events, hr, Option.some.inj haccepted, hexplains⟩

end Grammar

end PrintfLint
