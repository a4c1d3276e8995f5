import Mathlib.Data.List.Perm.Subperm
import Mathlib.Logic.Relation
import Mathlib.Tactic.Linarith
import Mathlib.Tactic.Ring
import PrintfLint.Grammar.Recogniser

/-!
# PrintfLint.Proofs.Grammar.Machine — runs of the stack machine

* `Config.Moves` — the two things that a step can do and go on: expand or read (`moves_of_step`,
  `step_of_moves`);
* `Config.Halts` — some number of steps suffices;
* `not_halts_of_turns` — a nonterminal that is expanded below itself, with nothing read in between,
  is expanded so for ever;
* `run_of_halts` — a run that ends does so within the step limit;
* `Analysis.recognise_of_accept`, `Analysis.recognise_of_refuse` — the result of a run from where
  its moves lead.

Between two readings the stack is a pile of frames, each with what is left of the right side of an
expanded nonterminal. The nonterminals of the frames are all different in a run that ends. So there
are no more frames than nonterminals, and the symbols of a frame can be charged with a power of the
width that is lower the higher the frame stands.
-/

namespace PrintfLint

/-- What an expansion by a rule puts on the stack. -/
def Production.pushed (p : Production) : List String :=
  if p.isEpsilon then [] else p.rhs

namespace Config

/-! ## Moves -/

variable {nonterminals : List String} {table : Table}

/-- A step after which the run goes on. -/
inductive Moves (nonterminals : List String) (table : Table) : Config → Config → Prop where
  | expand {n : String} {below input : List String} {p : Production} (hn : n ∈ nonterminals)
      (hrule : table.rule? n (input.headD endMark) = some p) :
      Moves nonterminals table ⟨n :: below, input⟩ ⟨p.pushed ++ below, input⟩
  | read {t : String} {below input : List String} (ht : t ∉ nonterminals) (hne : t ≠ endMark) :
      Moves nonterminals table ⟨t :: below, t :: input⟩ ⟨below, input⟩

/-- Any number of moves. -/
abbrev Reaches (nonterminals : List String) (table : Table) : Config → Config → Prop :=
  Relation.ReflTransGen (Moves nonterminals table)

theorem step_nil (input : List String) :
    step nonterminals table ⟨[], input⟩ = .refuse .exhausted := rfl

theorem step_expand {n : String} {below input : List String} {p : Production}
    (hn : n ∈ nonterminals) (hrule : table.rule? n (input.headD endMark) = some p) :
    step nonterminals table ⟨n :: below, input⟩ =
      .next ⟨⟨p.pushed ++ below, input⟩, p.render⟩ := by
  simp only [step, if_pos hn, hrule, Production.pushed]
  split <;> rfl

theorem step_noRule {n : String} {below input : List String} (hn : n ∈ nonterminals)
    (hrule : table.rule? n (input.headD endMark) = none) :
    step nonterminals table ⟨n :: below, input⟩ =
      .refuse (.noRule n (input.headD endMark)) := by
  simp only [step, if_pos hn, hrule]

theorem step_read {t : String} {below input : List String} (ht : t ∉ nonterminals)
    (hne : t ≠ endMark) :
    step nonterminals table ⟨t :: below, t :: input⟩ =
      .next ⟨⟨below, input⟩, "match " ++ t⟩ := by
  simp only [step, if_neg ht, List.headD_cons, if_true, if_neg hne, List.tail_cons]

theorem step_accept {below input : List String} (hend : endMark ∉ nonterminals)
    (hinput : input.headD endMark = endMark) :
    step nonterminals table ⟨endMark :: below, input⟩ =
      .accept ⟨⟨below, input.tail⟩, "match " ++ endMark⟩ := by
  simp only [step, if_neg hend, hinput, if_true]

theorem step_mismatch {t : String} {below input : List String} (ht : t ∉ nonterminals)
    (hne : t ≠ input.headD endMark) :
    step nonterminals table ⟨t :: below, input⟩ =
      .refuse (.mismatch t (input.headD endMark)) := by
  simp only [step, if_neg ht, if_neg hne]

theorem moves_of_step {c : Config} {entry : TraceStep}
    (h : c.step nonterminals table = .next entry) : Moves nonterminals table c entry.config := by
  rcases c with ⟨stack, input⟩
  cases stack with
  | nil => cases h
  | cons top below =>
    by_cases hn : top ∈ nonterminals
    · cases hrule : table.rule? top (input.headD endMark) with
      | none =>
        rw [step_noRule hn hrule] at h
        cases h
      | some p =>
        rw [step_expand hn hrule] at h
        cases h
        exact .expand hn hrule
    · by_cases htop : top = input.headD endMark
      · by_cases hend : top = endMark
        · subst hend
          rw [step_accept hn htop.symm] at h
          cases h
        · -- the lookahead is not the end mark, so the input is not empty
          cases input with
          | nil => exact absurd htop hend
          | cons t input =>
            have htop : top = t := htop
            subst htop
            rw [step_read hn hend] at h
            cases h
            exact .read hn hend
      · rw [step_mismatch hn htop] at h
        cases h

theorem step_of_moves {c c' : Config} (h : Moves nonterminals table c c') :
    ∃ action, c.step nonterminals table = .next ⟨c', action⟩ := by
  cases h with
  | expand hn hrule => exact ⟨_, step_expand hn hrule⟩
  | read ht hne => exact ⟨_, step_read ht hne⟩

/-- What happens above some part of the stack does not depend on that part. -/
theorem Moves.append {c c' : Config} (h : Moves nonterminals table c c') (below : List String) :
    Moves nonterminals table ⟨c.stack ++ below, c.input⟩ ⟨c'.stack ++ below, c'.input⟩ := by
  cases h with
  | expand hn hrule =>
    simp only [List.cons_append, List.append_assoc]
    exact .expand hn hrule
  | read ht hne => exact .read ht hne

/-! ## Runs -/

theorem run_of_moves {c c' : Config} (h : Moves nonterminals table c c') :
    ∃ action, ∀ limit, c.run nonterminals table (limit + 1) =
      (c'.run nonterminals table limit).map fun r =>
        { r with steps := ⟨c', action⟩ :: r.steps } := by
  rcases step_of_moves h with ⟨action, hstep⟩
  refine ⟨action, fun limit => ?_⟩
  rw [run, hstep]

theorem run_mono {c : Config} {limit limit' : ℕ} {r : Recognition}
    (h : c.run nonterminals table limit = some r) (hle : limit ≤ limit') :
    c.run nonterminals table limit' = some r := by
  -- the limit only counts down, so a larger one leaves the same steps
  induction limit generalizing c limit' r with
  | zero => simp [run] at h
  | succ limit ih =>
    obtain ⟨limit', rfl⟩ : ∃ m, limit' = m + 1 := ⟨limit' - 1, by omega⟩
    rw [run] at h ⊢
    cases hstep : c.step nonterminals table with
    | accept entry => simpa [hstep] using h
    | refuse e => simpa [hstep] using h
    | next entry =>
      simp only [hstep, Option.map_eq_some_iff] at h ⊢
      rcases h with ⟨r, hr, rfl⟩
      exact ⟨r, ih hr (by omega), rfl⟩

/-- Some number of steps suffices. -/
def Halts (nonterminals : List String) (table : Table) (c : Config) : Prop :=
  ∃ limit r, c.run nonterminals table limit = some r

/-- A run goes through the moves that lead to another one; its trace comes to where they lead. -/
theorem run_of_reaches {c c' : Config} (h : Reaches nonterminals table c c') {limit : ℕ}
    {r : Recognition} (hr : c'.run nonterminals table limit = some r) :
    ∃ limit' steps,
      c.run nonterminals table limit' = some { r with steps := steps ++ r.steps } ∧
        (steps.getLast?.map TraceStep.config).getD c = c' := by
  -- backwards from where the moves lead, so that each move is put in front of a run that is known
  induction h using Relation.ReflTransGen.head_induction_on with
  | refl => exact ⟨limit, [], hr, rfl⟩
  | @head c d hmove _ ih =>
    rcases ih with ⟨limit', steps, hrun, hlast⟩
    rcases run_of_moves hmove with ⟨action, hstep⟩
    refine ⟨limit' + 1, ⟨d, action⟩ :: steps, by rw [hstep, hrun]; rfl, ?_⟩
    -- the last state of the trace is the one that the moves lead to, also if there are no more
    -- steps
    cases steps with
    | nil => exact hlast
    | cons entry steps =>
      rw [List.getLast?_cons] at hlast
      rw [List.getLast?_cons_cons, List.getLast?_cons]
      exact hlast

theorem run_of_accept {c : Config} {entry : TraceStep}
    (h : c.step nonterminals table = .accept entry) :
    c.run nonterminals table 1 = some ⟨none, [entry]⟩ := by
  rw [run, h]

theorem run_of_refuse {c : Config} {e : Refusal}
    (h : c.step nonterminals table = .refuse e) :
    c.run nonterminals table 1 = some ⟨some e, []⟩ := by
  rw [run, h]

theorem Halts.of_reaches {c c' : Config} (h : Reaches nonterminals table c c')
    (hc : Halts nonterminals table c') : Halts nonterminals table c := by
  rcases hc with ⟨limit, r, hr⟩
  rcases run_of_reaches h hr with ⟨limit', steps, hrun, _⟩
  exact ⟨limit', _, hrun⟩

theorem Halts.of_moves {c c' : Config} (h : Moves nonterminals table c c')
    (hc : Halts nonterminals table c') : Halts nonterminals table c :=
  hc.of_reaches (.single h)

/-- After a move there is a step less to go. -/
theorem run_after_moves {c c' : Config} (h : Moves nonterminals table c c') {limit : ℕ}
    {r : Recognition} (hr : c.run nonterminals table limit = some r) :
    ∃ limit' < limit, ∃ r', c'.run nonterminals table limit' = some r' := by
  cases limit with
  | zero => simp [run] at hr
  | succ limit =>
    rcases run_of_moves h with ⟨action, hrun⟩
    rw [hrun] at hr
    rcases Option.map_eq_some_iff.mp hr with ⟨r', hr', _⟩
    exact ⟨limit, Nat.lt_succ_self limit, r', hr'⟩

theorem Halts.moves {c c' : Config} (hc : Halts nonterminals table c)
    (h : Moves nonterminals table c c') : Halts nonterminals table c' := by
  rcases hc with ⟨limit, r, hr⟩
  rcases run_after_moves h hr with ⟨limit', _, r', hr'⟩
  exact ⟨limit', r', hr'⟩

theorem halts_of_accept {c : Config} {entry : TraceStep}
    (h : c.step nonterminals table = .accept entry) : Halts nonterminals table c :=
  ⟨1, _, run_of_accept h⟩

theorem halts_of_refuse {c : Config} {e : Refusal}
    (h : c.step nonterminals table = .refuse e) : Halts nonterminals table c :=
  ⟨1, _, run_of_refuse h⟩

/-! ## Turns -/

/-- The nonterminal on the stack becomes the given symbols, and nothing is read. -/
def Turns (nonterminals : List String) (table : Table) (input : List String) (n : String)
    (stack : List String) : Prop :=
  Relation.TransGen (Moves nonterminals table) ⟨[n], input⟩ ⟨stack, input⟩

theorem run_after_turns {input stack below : List String} {n : String}
    (h : Turns nonterminals table input n stack) {limit : ℕ} {r : Recognition}
    (hr : Config.run nonterminals table limit ⟨n :: below, input⟩ = some r) :
    ∃ limit' < limit, ∃ r',
      Config.run nonterminals table limit' ⟨stack ++ below, input⟩ = some r' := by
  -- stated for any number of moves, of which the turn is one case
  suffices hall : ∀ c, Relation.TransGen (Moves nonterminals table) ⟨[n], input⟩ c →
      ∃ limit' < limit, ∃ r',
        Config.run nonterminals table limit' ⟨c.stack ++ below, c.input⟩ = some r' from
    hall _ h
  intro c hc
  induction hc with
  | single hmove => exact run_after_moves (hmove.append below) hr
  | tail _ hmove ih =>
    rcases ih with ⟨limit', hlt, r', hr'⟩
    rcases run_after_moves (hmove.append below) hr' with ⟨limit'', hlt', hr''⟩
    exact ⟨limit'', hlt'.trans hlt, hr''⟩

/-- A nonterminal that is expanded below itself is expanded so for ever. -/
theorem not_halts_of_turns {input above : List String} {n : String}
    (h : Turns nonterminals table input n (n :: above)) (below : List String) :
    ¬ Halts nonterminals table ⟨n :: below, input⟩ := by
  rintro ⟨limit, r, hr⟩
  -- a run that ends leads to a shorter one from the same nonterminal
  induction limit using Nat.strong_induction_on generalizing below r with
  | _ limit ih =>
    rcases run_after_turns h hr with ⟨limit', hlt, r', hr'⟩
    exact ih limit' hlt (above ++ below) r' hr'

/-! ## Frames -/

/-- Each frame is what its nonterminal has turned into, less what stands above it. -/
def Nested (nonterminals : List String) (table : Table) (input : List String) :
    List String → List (String × List String) → Prop
  | _, [] => True
  | above, (n, left) :: frames =>
    Turns nonterminals table input n (above ++ left) ∧
      Nested nonterminals table input (above ++ left) frames

theorem Nested.move {input above above' : List String} {frames : List (String × List String)}
    (h : Nested nonterminals table input above frames)
    (hmove : Moves nonterminals table ⟨above, input⟩ ⟨above', input⟩) :
    Nested nonterminals table input above' frames := by
  induction frames generalizing above above' with
  | nil => trivial
  | cons f frames ih =>
    rcases f with ⟨n, left⟩
    rcases h with ⟨hturns, hrest⟩
    have hnext := hmove.append left
    exact ⟨hturns.tail hnext, ih hrest hnext⟩

theorem Nested.turns {input above : List String} {frames : List (String × List String)}
    (h : Nested nonterminals table input above frames) {n : String}
    (hn : n ∈ frames.map Prod.fst) :
    ∃ left, Turns nonterminals table input n (above ++ left) := by
  induction frames generalizing above with
  | nil => cases hn
  | cons f frames ih =>
    rcases f with ⟨m, left⟩
    -- the topmost frame, or one below it, which has turned into what this one left as well
    rcases List.mem_cons.mp hn with rfl | hn
    · exact ⟨left, h.1⟩
    · rcases ih h.2 hn with ⟨left', hleft'⟩
      exact ⟨left ++ left', by rwa [← List.append_assoc]⟩

/-- The stack as frames on a base that was there when the lookahead was last read. -/
structure Framed (nonterminals : List String) (table : Table) (width : ℕ)
    (frames : List (String × List String)) (base : List String) (c : Config) : Prop where
  stack_eq : c.stack = frames.flatMap Prod.snd ++ base
  nested : Nested nonterminals table c.input [] frames
  nodup : (frames.map Prod.fst).Nodup
  mem : ∀ f ∈ frames, f.1 ∈ nonterminals
  short : ∀ f ∈ frames, f.2.length ≤ width

theorem Framed.base (width : ℕ) (c : Config) :
    Framed nonterminals table width [] c.stack c where
  stack_eq := rfl
  nested := trivial
  nodup := List.nodup_nil
  mem := by simp
  short := by simp

/-- There are no more frames than nonterminals. -/
theorem Framed.length_le {width : ℕ} {frames : List (String × List String)} {base : List String}
    {c : Config} (h : Framed nonterminals table width frames base c) :
    frames.length ≤ nonterminals.length := by
  have hsubset : frames.map Prod.fst ⊆ nonterminals := by
    intro n hn
    rcases List.mem_map.mp hn with ⟨f, hf, rfl⟩
    exact h.mem f hf
  simpa using (List.subperm_of_subset h.nodup hsubset).length_le

/-- The frames add a bounded number of symbols to the base. -/
theorem Framed.height_le {width : ℕ} {frames : List (String × List String)} {base : List String}
    {c : Config} (h : Framed nonterminals table width frames base c) :
    c.stack.length ≤ base.length + nonterminals.length * width := by
  -- stated for a part of the frames, so that the list can be taken apart
  have hframes : ∀ fs ⊆ frames, (fs.flatMap Prod.snd).length ≤ fs.length * width := by
    intro fs hfs
    induction fs with
    | nil => simp
    | cons f fs ih =>
      rcases List.cons_subset.mp hfs with ⟨hf, hfs⟩
      have hshort := h.short f hf
      have hrest := ih hfs
      simp only [List.flatMap_cons, List.length_append, List.length_cons, Nat.succ_mul]
      omega
  have hall := hframes frames (List.Subset.refl _)
  -- the nonterminals of frames are all different, so there are few frames
  have hfew := Nat.mul_le_mul_right width h.length_le
  rw [h.stack_eq, List.length_append]
  omega

/-- Drops a frame of which nothing is left. -/
theorem Framed.drop {width : ℕ} {n : String} {frames : List (String × List String)}
    {base : List String} {c : Config}
    (h : Framed nonterminals table width ((n, []) :: frames) base c) :
    Framed nonterminals table width frames base c where
  stack_eq := by simpa using h.stack_eq
  nested := h.nested.2
  nodup := (List.nodup_cons.mp h.nodup).2
  mem := fun f hf => h.mem f (List.mem_cons_of_mem _ hf)
  short := fun f hf => h.short f (List.mem_cons_of_mem _ hf)

/-- In a run that ends, no frame belongs to the nonterminal that is expanded. -/
theorem Nested.notMem {input above below : List String} {frames : List (String × List String)}
    {n : String} (h : Nested nonterminals table input (n :: above) frames)
    (hhalts : Halts nonterminals table ⟨n :: below, input⟩) : n ∉ frames.map Prod.fst := by
  intro hn
  rcases h.turns hn with ⟨left, hturns⟩
  exact not_halts_of_turns hturns below hhalts

/-! ## The number of steps -/

/-- What the symbols of the frames and of the base may cost. -/
def load (count width : ℕ) : List (String × List String) → List String → ℕ
  | [], base => base.length * (width + 2) ^ count
  | f :: frames, base =>
    f.2.length * (width + 2) ^ (count - (frames.length + 1)) + load count width frames base

/-- The expansion of a symbol that costs `w ^ (level + 1)` pushes symbols that cost `w ^ level`. -/
theorem pushed_cost {width pushed : ℕ} (level : ℕ) (h : pushed ≤ width) :
    pushed * (width + 2) ^ level + 1 ≤ (width + 2) ^ (level + 1) := by
  have hpos : 0 < (width + 2) ^ level := Nat.pow_pos (by omega)
  have hle := Nat.mul_le_mul_right ((width + 2) ^ level) h
  rw [pow_succ]
  nlinarith

/-- An expansion makes a new frame, and the load smaller. -/
theorem Framed.expand {width : ℕ} {frames : List (String × List String)}
    {base below input : List String} {n : String} {p : Production}
    (h : Framed nonterminals table width frames base ⟨n :: below, input⟩)
    (hhalts : Halts nonterminals table ⟨n :: below, input⟩) (hn : n ∈ nonterminals)
    (hrule : table.rule? n (input.headD endMark) = some p) (hwidth : p.pushed.length ≤ width) :
    ∃ frames' base', Framed nonterminals table width frames' base' ⟨p.pushed ++ below, input⟩ ∧
      load nonterminals.length width frames' base' <
        load nonterminals.length width frames base ∧ base'.length ≤ base.length := by
  have hmove : Moves nonterminals table ⟨[n], input⟩ ⟨p.pushed, input⟩ := by
    have hstep : Moves nonterminals table ⟨[n], input⟩ ⟨p.pushed ++ [], input⟩ :=
      .expand hn hrule
    rwa [List.append_nil] at hstep
  have hturns : Turns nonterminals table input n p.pushed := .single hmove
  induction frames with
  | nil =>
    -- the base gives a symbol away
    have hbase : base = n :: below := h.stack_eq.symm
    refine ⟨[(n, p.pushed)], below, ⟨by simp, ⟨hturns, trivial⟩, by simp, by simpa using hn,
      by simpa using hwidth⟩, ?_, by simp [hbase]⟩
    obtain ⟨count, hcount⟩ : ∃ count, nonterminals.length = count + 1 :=
      ⟨nonterminals.length - 1, by have := List.length_pos_of_mem hn; omega⟩
    have hcost := pushed_cost count hwidth
    simp only [load, hbase, hcount, List.length_cons, List.length_nil, Nat.zero_add,
      Nat.add_sub_cancel, Nat.succ_mul]
    omega
  | cons f frames ih =>
    rcases f with ⟨m, left⟩
    cases left with
    | nil =>
      -- nothing is left of the frame, and the one below it gives the symbol away
      rcases ih h.drop with ⟨frames', base', hframed, hless, hle⟩
      refine ⟨frames', base', hframed, ?_, hle⟩
      simpa [load] using hless
    | cons s left =>
      -- the frame gives a symbol away, and the new frame stands on it
      obtain ⟨rfl, hbelow⟩ : n = s ∧ below = left ++ (frames.flatMap Prod.snd ++ base) := by
        simpa using h.stack_eq
      rcases h.nested with ⟨hm, hnested⟩
      have hnext : Nested nonterminals table input p.pushed ((m, left) :: frames) := by
        refine ⟨hm.tail (hmove.append left), hnested.move (hmove.append left)⟩
      have hfresh : n ∉ ((m, left) :: frames).map Prod.fst := by
        intro hmem
        rcases List.mem_cons.mp hmem with rfl | hmem
        · exact not_halts_of_turns hm below hhalts
        · exact hnested.notMem hhalts hmem
      have hframed : Framed nonterminals table width ((n, p.pushed) :: (m, left) :: frames) base
          ⟨p.pushed ++ below, input⟩ := by
        refine ⟨by simp [hbelow], ⟨hturns, hnext⟩, List.nodup_cons.mpr ⟨hfresh, h.nodup⟩, ?_, ?_⟩
        · intro f hf
          rcases List.mem_cons.mp hf with rfl | hf
          · exact hn
          · rcases List.mem_cons.mp hf with rfl | hf
            · exact h.mem (m, n :: left) List.mem_cons_self
            · exact h.mem f (List.mem_cons_of_mem _ hf)
        · intro f hf
          rcases List.mem_cons.mp hf with rfl | hf
          · exact hwidth
          · rcases List.mem_cons.mp hf with rfl | hf
            · have hshort := h.short (m, n :: left) List.mem_cons_self
              exact (Nat.le_succ _).trans hshort
            · exact h.short f (List.mem_cons_of_mem _ hf)
      refine ⟨_, base, hframed, ?_, le_rfl⟩
      have hfew := hframed.length_le
      simp only [List.length_cons] at hfew
      obtain ⟨level, hlevel⟩ : ∃ level, nonterminals.length = level + (frames.length + 2) :=
        ⟨nonterminals.length - (frames.length + 2), by omega⟩
      have hhigh : nonterminals.length - (frames.length + 1 + 1) = level := by omega
      have hlow : nonterminals.length - (frames.length + 1) = level + 1 := by omega
      have hcost := pushed_cost level hwidth
      simp only [load, List.length_cons, hhigh, hlow, Nat.succ_mul]
      omega

/-- Enough steps for a stack of a given height and an input of a given length. -/
def budget (count width : ℕ) : ℕ → ℕ → ℕ
  | 0, height => height * (width + 2) ^ count + 1
  | length + 1, height =>
    height * (width + 2) ^ count + 1 + budget count width length (height + count * width)

theorem budget_mono {count width length height height' : ℕ} (h : height ≤ height') :
    budget count width length height ≤ budget count width length height' := by
  induction length generalizing height height' with
  | zero =>
    have := Nat.mul_le_mul_right ((width + 2) ^ count) h
    simp only [budget]
    omega
  | succ length ih =>
    have := Nat.mul_le_mul_right ((width + 2) ^ count) h
    have := ih (Nat.add_le_add_right h (count * width))
    simp only [budget]
    omega

/-- Enough steps for the rest of the input, after the lookahead has been read. -/
def budgetAfter (count width : ℕ) : List String → ℕ → ℕ
  | [], _ => 0
  | _ :: input, height => budget count width input.length (height + count * width)

theorem budget_eq (count width : ℕ) (input base : List String) :
    budget count width input.length base.length =
      load count width [] base + 1 + budgetAfter count width input base.length := by
  cases input <;> simp [budget, budgetAfter, load]

theorem budgetAfter_mono (count width : ℕ) (input : List String) {height height' : ℕ}
    (h : height ≤ height') :
    budgetAfter count width input height ≤ budgetAfter count width input height' := by
  cases input with
  | nil => exact le_rfl
  | cons t input => exact budget_mono (Nat.add_le_add_right h _)

/-- A run that ends does so within the load and the budget for what is read later. -/
theorem run_of_framed {width : ℕ}
    (hwidth : ∀ n t p, table.rule? n t = some p → p.pushed.length ≤ width) {limit : ℕ}
    {frames : List (String × List String)} {base : List String} {c : Config}
    (hframed : Framed nonterminals table width frames base c)
    (hhalts : Halts nonterminals table c)
    (hlimit : load nonterminals.length width frames base + 1 +
      budgetAfter nonterminals.length width c.input base.length ≤ limit) :
    ∃ r, c.run nonterminals table limit = some r := by
  -- an expansion takes from the load, and a reading turns budget into load
  induction limit generalizing c frames base with
  | zero => omega
  | succ limit ih =>
    cases hstep : c.step nonterminals table with
    | accept entry => exact ⟨⟨none, [entry]⟩, by rw [run, hstep]⟩
    | refuse e => exact ⟨⟨some e, []⟩, by rw [run, hstep]⟩
    | next entry =>
      have hmove := moves_of_step hstep
      rcases run_of_moves hmove with ⟨action, hrun⟩
      suffices hrest : ∃ r, entry.config.run nonterminals table limit = some r by
        rcases hrest with ⟨r, hr⟩
        exact ⟨_, by rw [hrun, hr]; rfl⟩
      have hnext := hhalts.moves hmove
      generalize entry.config = c' at hmove hnext
      cases hmove with
      | @expand n below input p hn hrule =>
        obtain ⟨frames', base', hframed', hless, hle⟩ :=
          hframed.expand hhalts hn hrule (hwidth _ _ _ hrule)
        have hlater := budgetAfter_mono nonterminals.length width input hle
        refine ih hframed' hnext ?_
        simp only at hlimit ⊢
        omega
      | @read t below input ht hne =>
        have hheight := hframed.height_le
        simp only [List.length_cons] at hheight
        have hlater : budget nonterminals.length width input.length below.length ≤
            budgetAfter nonterminals.length width (t :: input) base.length :=
          budget_mono (by omega)
        have hload := budget_eq nonterminals.length width input below
        have hframed' : Framed nonterminals table width [] below ⟨below, input⟩ :=
          Framed.base width ⟨below, input⟩
        refine ih hframed' hnext ?_
        simp only at hlimit ⊢
        omega

end Config

/-! ## The step limit -/

namespace Grammar

theorem rhs_length_le_width {g : Grammar} {p : Production} (hp : p ∈ g.productions) :
    p.rhs.length ≤ g.width := by
  -- stated with any start of the fold, which is the least that it can come to
  have hfold : ∀ (ks : List ℕ) (init : ℕ), init ≤ ks.foldl max init ∧
      ∀ k ∈ ks, k ≤ ks.foldl max init := by
    intro ks
    induction ks with
    | nil => simp
    | cons k ks ih =>
      intro init
      rcases ih (max init k) with ⟨hinit, hrest⟩
      simp only [List.foldl_cons, List.forall_mem_cons]
      exact ⟨(le_max_left init k).trans hinit, (le_max_right init k).trans hinit, hrest⟩
  exact (hfold _ 0).2 _ (List.mem_map_of_mem hp)

/-- The budget of a stack of two symbols lies within the step limit. -/
theorem budget_le_stepLimit (g : Grammar) (length : ℕ) :
    Config.budget g.nonterminals.length g.width length 2 ≤ g.stepLimit length := by
  -- the recursion of the budget in closed form: one phase for each symbol of the input, and a
  -- higher stack in each
  have hclosed : ∀ length height, Config.budget g.nonterminals.length g.width length height ≤
      (length + 1) * ((height + length * (g.nonterminals.length * g.width)) *
        (g.width + 2) ^ g.nonterminals.length + 1) := by
    intro length
    induction length with
    | zero =>
      intro height
      simp [Config.budget]
    | succ length ih =>
      intro height
      have hrest := ih (height + g.nonterminals.length * g.width)
      rw [Config.budget]
      nlinarith [Nat.zero_le ((length + 1) * (g.nonterminals.length * g.width) *
        (g.width + 2) ^ g.nonterminals.length)]
  refine (hclosed length 2).trans ?_
  -- the limit has a power more than is needed, and a factor above the height
  have hpow : (g.width + 2) ^ g.nonterminals.length ≤
      (g.width + 2) ^ (g.nonterminals.length + 1) :=
    Nat.pow_le_pow_right (by omega) (Nat.le_succ _)
  have hheight : 2 + length * (g.nonterminals.length * g.width) ≤
      (length + 2) * (g.nonterminals.length * g.width + 3) := by
    nlinarith [Nat.zero_le (g.nonterminals.length * g.width)]
  have hphase := Nat.mul_le_mul hheight hpow
  rw [stepLimit]
  exact Nat.mul_le_mul (by omega) (Nat.add_le_add_right hphase 1)

end Grammar

namespace Analysis

variable {a : Analysis}

/-- The rules in the cells are rules of the grammar. -/
def RulesOf (a : Analysis) : Prop :=
  ∀ n t p, a.table.rule? n t = some p → p ∈ a.grammar.productions

/-- A run that ends does so within the step limit. -/
theorem run_of_halts (ha : a.RulesOf) {input : List String}
    (h : Config.Halts a.grammar.nonterminals a.table (a.initial input)) :
    ∃ r, (a.initial input).run a.grammar.nonterminals a.table
      (a.grammar.stepLimit (a.initial input).input.length) = some r := by
  -- what an expansion pushes is the right side, or nothing for the empty string
  have hwidth : ∀ n t p, a.table.rule? n t = some p → p.pushed.length ≤ a.grammar.width := by
    intro n t p hrule
    have hrhs := Grammar.rhs_length_le_width (ha n t p hrule)
    unfold Production.pushed
    split
    · exact Nat.zero_le _
    · exact hrhs
  have hbudget := a.grammar.budget_le_stepLimit (a.initial input).input.length
  refine Config.run_of_framed hwidth (Config.Framed.base a.grammar.width _) h ?_
  have hload := Config.budget_eq a.grammar.nonterminals.length a.grammar.width
    (a.initial input).input (a.initial input).stack
  rw [← hload]
  exact hbudget

/-- Whatever number of steps shows how a run ends, the step limit shows it too. -/
theorem recognise_of_run (ha : a.RulesOf) {input : List String} {limit : ℕ} {r : Recognition}
    (h : (a.initial input).run a.grammar.nonterminals a.table limit = some r) :
    a.recognise input = some { r with steps := ⟨a.initial input, "init"⟩ :: r.steps } := by
  rcases run_of_halts ha ⟨limit, r, h⟩ with ⟨r', hr'⟩
  have hsame : r' = r := by
    -- the longer of the two runs goes through the shorter one
    rcases Nat.le_total limit (a.grammar.stepLimit (a.initial input).input.length) with hle | hle
    · rw [Config.run_mono h hle] at hr'
      exact (Option.some.inj hr').symm
    · rw [Config.run_mono hr' hle] at h
      exact Option.some.inj h
  rw [recognise, hr', hsame]
  rfl

/-- No result means that no number of steps suffices. -/
theorem recognise_eq_none_iff (ha : a.RulesOf) {input : List String} :
    a.recognise input = none ↔
      ¬ Config.Halts a.grammar.nonterminals a.table (a.initial input) := by
  constructor
  · rintro hnone ⟨limit, r, hr⟩
    rw [recognise_of_run ha hr] at hnone
    cases hnone
  · intro hruns
    rw [recognise, Option.map_eq_none_iff, Option.eq_none_iff_forall_not_mem]
    intro r hr
    exact hruns ⟨_, r, hr⟩

theorem recognise_of_accept (ha : a.RulesOf) {input : List String} {c : Config}
    (h : Config.Reaches a.grammar.nonterminals a.table (a.initial input) c) {entry : TraceStep}
    (hc : c.step a.grammar.nonterminals a.table = .accept entry) :
    ∃ r, a.recognise input = some r ∧ r.accepted = true := by
  rcases Config.run_of_reaches h (Config.run_of_accept hc) with ⟨limit, steps, hrun, _⟩
  exact ⟨_, recognise_of_run ha hrun, rfl⟩

/-- The trace of an input that is refused ends with the configuration that is refused. -/
theorem recognise_of_refuse (ha : a.RulesOf) {input : List String} {c : Config}
    (h : Config.Reaches a.grammar.nonterminals a.table (a.initial input) c) {e : Refusal}
    (hc : c.step a.grammar.nonterminals a.table = .refuse e) :
    ∃ r, a.recognise input = some r ∧ r.accepted = false ∧
      r.steps.getLast?.map TraceStep.config = some c := by
  rcases Config.run_of_reaches h (Config.run_of_refuse hc) with ⟨limit, steps, hrun, hlast⟩
  refine ⟨_, recognise_of_run ha hrun, rfl, ?_⟩
  rw [List.append_nil, List.getLast?_cons]
  cases hsteps : steps.getLast? with
  | none => simpa [hsteps] using hlast
  | some entry => simpa [hsteps] using hlast

end Analysis

end PrintfLint
