import PrintfLint.Command.Invocation

/-!
# PrintfLint.Proofs.Command.Arguments — arguments that ask for a check

* `AsksFor` — the arguments ask for a check of a file with given options;
* `asksFor_switches` — switches in any order, two hyphens and a file name;
* `commandLine`, `asksFor_commandLine` — every combination of options can be asked for.

All arguments are classified before the first takes effect, so there are two passes over the list:
`classifyAll` turns the switches into words, and `ofWords` turns them on one by one.
-/

namespace PrintfLint.Command

/-- The arguments ask for a check of the file of this name, with these options, and for a list of
the tokens of each line if `tokens` is set. What is logged is left open. -/
def AsksFor (arguments : List String) (name : String) (options : Options) (tokens : Bool) : Prop :=
  name ≠ "" ∧ ∃ level, Request.ofArguments arguments =
    .check { file? := some name, options, tokens, level? := some level }

namespace Flag

/-- A flag that turns something on in a check. -/
def IsSwitch (f : Flag) : Prop :=
  f ≠ help ∧ f ≠ logLevel

/-- The long spelling of a flag. -/
def spelled : Flag → String
  | help => "--help"
  | strictNumbers => "--strict-numbers"
  | strictStrings => "--strict-strings"
  | propagateUnknown => "--propagate-unknown"
  | tokens => "--tokens"
  | logLevel => "--log-level"

theorem classify_spelled (f : Flag) : Word.classify f.spelled = .ok (.flag f f.spelled none) := by
  cases f <;> rfl

theorem spelled_ne_separator (f : Flag) : f.spelled ≠ "--" := by
  cases f <;> decide

end Flag

/-! ## Classification -/

theorem Word.classifyAll_spelled (fs : List Flag) {rest : List String} {ws : List Word}
    (h : classifyAll rest = .ok ws) :
    classifyAll (fs.map Flag.spelled ++ rest) =
      .ok (fs.map (fun f => flag f f.spelled none) ++ ws) := by
  induction fs with
  | nil => exact h
  | cons f fs ih =>
    rw [List.map_cons, List.cons_append, classifyAll, if_neg f.spelled_ne_separator,
      f.classify_spelled, ih]
    rfl

theorem Word.classifyAll_separator (name : String) :
    classifyAll ["--", name] = .ok [separator, positional name] :=
  rfl

/-! ## Switches -/

namespace Request

theorem ofWords_switch (i : Invocation) (extras : List String) {f : Flag} (hf : f.IsSwitch)
    (spelling : String) (ws : List Word) :
    ofWords i extras (.flag f spelling none :: ws) = ofWords (switch i f) extras ws := by
  rw [ofWords]
  · exact hf.1
  · intro _ _ _
    exact hf.2
  · exact hf.2

theorem ofWords_switches (i : Invocation) (extras : List String) {fs : List Flag}
    (hfs : ∀ f ∈ fs, f.IsSwitch) (ws : List Word) :
    ofWords i extras (fs.map (fun f => .flag f f.spelled none) ++ ws) =
      ofWords (fs.foldl switch i) extras ws := by
  induction fs generalizing i with
  | nil => rfl
  | cons f fs ih =>
    rw [List.map_cons, List.cons_append, ofWords_switch i extras (hfs f List.mem_cons_self),
      ih _ fun g hg => hfs g (List.mem_cons_of_mem f hg)]
    rfl

/-- A switch stays on, and nothing but the switches changes. -/
theorem foldl_switch (fs : List Flag) (i : Invocation) :
    fs.foldl switch i =
      { i with
        options :=
          { numbers := i.options.numbers || decide (.strictNumbers ∈ fs)
            literals := i.options.literals || decide (.strictStrings ∈ fs)
            propagate := i.options.propagate || decide (.propagateUnknown ∈ fs) }
        tokens := i.tokens || decide (.tokens ∈ fs) } := by
  -- each switch turns its option on, and the ones that follow leave it on
  induction fs generalizing i with
  | nil => simp
  | cons f fs ih =>
    rw [List.foldl_cons, ih]
    cases f <;> simp [switch]

end Request

/-- The options that switches turn on. -/
def Flag.optionsOf (fs : List Flag) : Options where
  numbers := decide (.strictNumbers ∈ fs)
  literals := decide (.strictStrings ∈ fs)
  propagate := decide (.propagateUnknown ∈ fs)

/-- Switches in any order, perhaps repeated, and a file name after two hyphens. The name may look
like an option. -/
theorem asksFor_switches {fs : List Flag} (hfs : ∀ f ∈ fs, f.IsSwitch) {name : String}
    (hname : name ≠ "") :
    AsksFor (fs.map Flag.spelled ++ ["--", name]) name (Flag.optionsOf fs)
      (decide (.tokens ∈ fs)) := by
  refine ⟨hname, .warning, ?_⟩
  -- first all words, then their effects
  rw [Request.ofArguments, Word.classifyAll_spelled fs (Word.classifyAll_separator name)]
  dsimp only
  rw [Request.ofWords_switches _ _ hfs, Request.foldl_switch]
  simp [Request.ofWords, Request.finish, Flag.optionsOf]

/-! ## Command lines -/

/-- The switches for given options. -/
def switchesFor (options : Options) (tokens : Bool) : List Flag :=
  (if options.numbers then [.strictNumbers] else []) ++
    (if options.literals then [.strictStrings] else []) ++
    (if options.propagate then [.propagateUnknown] else []) ++
    if tokens then [.tokens] else []

/-- The arguments for a check of a file with given options. -/
def commandLine (options : Options) (tokens : Bool) (name : String) : List String :=
  (switchesFor options tokens).map Flag.spelled ++ ["--", name]

/-- Every combination of options can be asked for. -/
theorem asksFor_commandLine (options : Options) (tokens : Bool) {name : String}
    (hname : name ≠ "") : AsksFor (commandLine options tokens name) name options tokens := by
  -- help and the log level are no switches, since they do not turn anything on
  have hswitch : ∀ f ∈ switchesFor options tokens, f.IsSwitch := by
    intro f hf
    cases f with
    | help => simp [switchesFor] at hf
    | logLevel => simp [switchesFor] at hf
    | _ => exact ⟨nofun, nofun⟩
  have hoptions : Flag.optionsOf (switchesFor options tokens) = options := by
    simp [Flag.optionsOf, switchesFor]
  have htokens : decide (.tokens ∈ switchesFor options tokens) = tokens := by
    simp [switchesFor]
  have hasks := asksFor_switches hswitch hname
  rwa [hoptions, htokens] at hasks

end PrintfLint.Command
