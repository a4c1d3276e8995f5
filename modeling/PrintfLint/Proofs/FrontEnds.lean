import PrintfLint.Command.Check
import PrintfLint.Proofs.Command.Arguments
import PrintfLint.Proofs.Token.Strictness
import PrintfLint.Proofs.Verdict.Finding
import PrintfLint.Service.Answer

/-!
# PrintfLint.Proofs.FrontEnds — the command and the service report the same

* `Service.Answers` — the body of an answer lists findings and counts them;
* `Service.validate_eq`, `answers_validateBody` — the service answers so, unless there are too many
  lines;
* `Command.outputRows` — the rows for a source text in the output of the command;
* `Command.execute_source` — the command prints these rows, and a summary after them;
* `front_ends_agree` — so the verdicts on a source text, the answer of the service and the output of
  the command report the same findings.

A source text is divided into lines up to three times on its way: line breaks are written as line
feeds when a file is read, the text is cut at line breaks, and line breaks at the end of a line are
dropped. The first does not change where the second cuts (`Text.lines_joinBreaks`), and after the
second there is nothing to drop (`Text.trimBreaks_of_unbroken`).
-/

namespace PrintfLint

/-! ## The service -/

/-- The value of a field of a table. -/
def Data.field? (name : String) : Data → Option Data
  | .table entries => entries.lookup name
  | _ => none

namespace Service

/-- The options of a request that sets them all. -/
def OptionFields.ofOptions (o : Options) : OptionFields :=
  ⟨some o.numbers, some o.literals, some o.propagate⟩

/-- An entry of an answer reports a finding. -/
structure Reports (entry : Data) (f : Finding) : Prop where
  number : entry.field? "line_number" = some (.int f.number)
  valid : entry.field? "valid" = some (.bool f.valid)
  reason : entry.field? "reason" = some (.ofOption .text f.reason?)

/-- The body of an answer reports the findings in order, counts them and says if all lines are
valid. -/
structure Answers (body : Data) (fs : List Finding) : Prop where
  results : ∃ entries, body.field? "results" = some (.seq entries) ∧ List.Forall₂ Reports entries fs
  lines : body.field? "line_count" = some (.int fs.length)
  valid : body.field? "valid_count" = some (.int (Finding.validCount fs))
  invalid : body.field? "invalid_count" = some (.int (Finding.invalidCount fs))
  all : body.field? "all_valid" = some (.bool (Finding.allValid fs))

theorem reports_verdictBody (includeTokens : Bool) (elapsed : Duration) (v : Verdict) :
    Reports (verdictBody includeTokens elapsed v) v.finding where
  number := by rfl
  valid := by rfl
  reason := by rfl

/-- The body of an answer with given verdicts, and with the times that they took. -/
def validateBody (includeTokens : Bool) (elapsed : ℤ → Duration) (vs : List Verdict) : Data :=
  .table [
    ("line_count", .int vs.length),
    ("valid_count", .int (vs.length - Verdict.invalidCount vs : ℤ)),
    ("invalid_count", .int (Verdict.invalidCount vs)),
    ("all_valid", .bool (Verdict.invalidCount vs = 0)),
    ("results", .ofList (fun v => verdictBody includeTokens (elapsed v.number) v) vs)]

theorem answers_validateBody (includeTokens : Bool) (elapsed : ℤ → Duration) (vs : List Verdict) :
    Answers (validateBody includeTokens elapsed vs) (vs.map Verdict.finding) where
  results := by
    refine ⟨_, rfl, ?_⟩
    rw [List.forall₂_map_left_iff, List.forall₂_map_right_iff, List.forall₂_same]
    intro v _
    exact reports_verdictBody includeTokens (elapsed v.number) v
  lines := by
    rw [List.length_map]
    rfl
  valid := by
    -- the invalid verdicts are counted, and the valid ones are the others
    have hcounts := Finding.validCount_add_invalidCount (vs.map Verdict.finding)
    rw [Finding.invalidCount_map, List.length_map] at hcounts
    have hvalid : (vs.length - Verdict.invalidCount vs : ℤ) =
        Finding.validCount (vs.map Verdict.finding) := by
      omega
    rw [← hvalid]
    rfl
  invalid := by
    rw [Finding.invalidCount_map]
    rfl
  all := by
    have hall : Finding.allValid (vs.map Verdict.finding) =
        decide (Verdict.invalidCount vs = 0) := by
      rw [Bool.eq_iff_iff, decide_eq_true_eq, Finding.allValid_eq_true_iff,
        Finding.invalidCount_map]
    rw [hall]
    rfl

/-- The answer to a request that sets all options. -/
theorem validate_eq (settings : Settings) (elapsed : ℤ → Duration) (options : Options)
    (source : String) (includeTokens : Bool) :
    validate settings elapsed ⟨.ofOptions options, source, includeTokens⟩ =
      if settings.maxLines < (Text.lines source).length then
        .tooManyLines (Text.lines source).length settings.maxLines
      else .ok (validateBody includeTokens elapsed (Verdict.ofSource options source)) :=
  rfl

end Service

/-! ## The command -/

namespace Command

/-- Rows of text, each with a line feed at its end. -/
def unlines (rows : List String) : String :=
  String.join (rows.map (· ++ "\n"))

theorem unlines_cons (row : String) (rows : List String) :
    unlines (row :: rows) = row ++ "\n" ++ unlines rows := by
  rw [unlines, List.map_cons, String.join_cons]
  rfl

theorem unlines_singleton (row : String) : unlines [row] = row ++ "\n" := by
  rw [unlines_cons]
  exact String.append_empty

theorem unlines_append (rows rows' : List String) :
    unlines (rows ++ rows') = unlines rows ++ unlines rows' := by
  rw [unlines, List.map_append, String.join_append]
  rfl

theorem unlines_flatMap {α : Type} (f : α → List String) (xs : List α) :
    unlines (xs.flatMap f) = String.join (xs.map fun x => unlines (f x)) := by
  induction xs with
  | nil => rfl
  | cons x xs ih => rw [List.flatMap_cons, unlines_append, ih, List.map_cons, String.join_cons]

/-- The row for the tokens of a line, if they are asked for and the line has any. -/
def tokenRows (options : Options) (tokens : Bool) (line : String) (number : ℤ) : List String :=
  match TokenSeq.ofLine options.toStrictness line number with
  | .error _ => []
  | .ok s => if tokens then ["    " ++ Token.renderAll s.toList] else []

/-- The rows for a source text: the finding on each line, and after it the tokens of the line. -/
def outputRows (options : Options) (tokens : Bool) (source : String) : List String :=
  (Verdict.ofSource options source).flatMap fun v =>
    v.finding.row :: tokenRows options tokens v.line v.number

/-- The last row of the output. -/
def summaryRow (duration : String) (fs : List Finding) : String :=
  "Lines: " ++ toString fs.length ++ " | Valid: " ++ toString (Finding.validCount fs) ++
    " | Invalid: " ++ toString (Finding.invalidCount fs) ++ " | Time: " ++ duration ++ " ms"

/-! ### Reports -/

theorem reportLine_ofLine (options : Options) (tokens : Bool) (line : String) (number : ℤ) :
    reportLine tokens (Verdict.ofLine options line number) =
      unlines ((Verdict.ofLine options line number).finding.row ::
        tokenRows options tokens line number) := by
  rw [reportLine, unlines_cons, Verdict.render_eq_row, tokenRows]
  congr 1
  cases hscan : TokenSeq.ofLine options.toStrictness line number with
  | error e =>
    have htokens : (Verdict.ofLine options line number).tokens = [] := by
      rw [Verdict.ofLine, hscan]
    rw [htokens, List.isEmpty_nil, Bool.not_true, Bool.and_false]
    rfl
  | ok s =>
    have htokens : (Verdict.ofLine options line number).tokens = s.toList := by
      rw [Verdict.ofLine, hscan]
    -- there is always the end-of-input token
    have hsome : s.toList.isEmpty = false := by simp [TokenSeq.toList]
    rw [htokens, hsome, Bool.not_false, Bool.and_true]
    cases tokens with
    | false => rfl
    | true => exact (unlines_singleton _).symm

theorem report_ofSource (options : Options) (tokens : Bool) (source : String) :
    report tokens (Verdict.ofSource options source) =
      unlines (outputRows options tokens source) := by
  rw [report, outputRows, unlines_flatMap]
  congr 1
  apply List.map_congr_left
  intro v hv
  rcases Verdict.exists_of_mem_ofSource hv with ⟨line, _, number, rfl⟩
  rw [Verdict.ofLine_line, Verdict.ofLine_number]
  exact reportLine_ofLine options tokens line number

theorem render_tally (duration : String) (vs : List Verdict) :
    (Tally.ofVerdicts vs).render duration =
      unlines [summaryRow duration (vs.map Verdict.finding)] := by
  have hcounts := Finding.validCount_add_invalidCount (vs.map Verdict.finding)
  rw [Finding.invalidCount_map, List.length_map] at hcounts
  -- a tally has the invalid verdicts, so the valid ones are what is left of all
  have hvalid : (Tally.ofVerdicts vs).valid = Finding.validCount (vs.map Verdict.finding) := by
    simp only [Tally.valid, Tally.ofVerdicts]
    omega
  have hend : " ms\n" = " ms" ++ "\n" := by decide
  unfold Tally.render summaryRow
  simp only [unlines_singleton, hvalid, Finding.invalidCount_map, List.length_map]
  exact (congrArg (_ ++ ·) hend).trans String.append_assoc.symm

/-! ### Rows have no line breaks -/

theorem unbroken_renderAll {ts : List Token} (h : ∀ t ∈ ts, Text.Unbroken t.text.toList) :
    Text.Unbroken (Token.renderAll ts).toList := by
  have hspace : Text.Unbroken " ".toList := Text.OnOneLine.unbroken (by decide)
  have hopen : Text.Unbroken "(".toList := Text.OnOneLine.unbroken (by decide)
  have hclose : Text.Unbroken ")".toList := Text.OnOneLine.unbroken (by decide)
  refine Text.unbroken_intercalate hspace ?_
  intro s hs
  rcases List.mem_map.mp hs with ⟨t, ht, rfl⟩
  have hname : Text.Unbroken t.kind.name.toList := t.kind.onOneLine_name.unbroken
  unfold Token.render
  -- only the end of input is printed without its text
  split
  · exact hname
  · simp only [String.toList_append]
    exact ((hname.append hopen).append (h t ht)).append hclose

/-- The text of a token is a part of the line. -/
theorem unbroken_text {strict : Strictness} {line : String} {number : ℤ} {s : TokenSeq}
    (h : TokenSeq.ofLine strict line number = .ok s) (hline : Text.Unbroken line.toList) :
    ∀ t ∈ s.toList, Text.Unbroken t.text.toList := by
  rcases TokenSeq.tiles_of_ofLine h with ⟨htiles, hlast⟩
  intro t ht c hc
  rcases List.mem_append.mp ht with ht | ht
  · rcases htiles.piece t ht with ⟨i, j, _, hpiece⟩
    rw [hpiece.text_eq] at hc
    exact hline c (List.mem_of_mem_drop (List.mem_of_mem_take hc))
  · rw [List.mem_singleton.mp ht, hlast] at hc
    cases hc

theorem unbroken_of_mem_outputRows {options : Options} {tokens : Bool} {source row : String}
    (h : row ∈ outputRows options tokens source) : Text.Unbroken row.toList := by
  rcases List.mem_flatMap.mp h with ⟨v, hv, hrow⟩
  rcases Verdict.exists_of_mem_ofSource hv with ⟨line, hline, number, rfl⟩
  rw [Verdict.ofLine_line, Verdict.ofLine_number] at hrow
  rcases List.mem_cons.mp hrow with rfl | hrow
  · -- the finding on a line
    exact (Verdict.onOneLine_render options line number).unbroken
  · -- the tokens of the line, if it has any and they are asked for
    unfold tokenRows at hrow
    split at hrow
    · cases hrow
    · rename_i s hscan
      split at hrow
      · have hindent : Text.Unbroken "    ".toList := Text.OnOneLine.unbroken (by decide)
        rw [List.mem_singleton.mp hrow, String.toList_append]
        exact hindent.append
          (unbroken_renderAll (unbroken_text hscan (Text.unbroken_of_mem_lines hline)))
      · cases hrow

/-! ### Runs -/

theorem decode?_toUTF8 (source : String) :
    decode? source.toUTF8 = some (String.ofList (Text.joinBreaks source.toList)) := by
  have hvalid : String.fromUTF8? source.toUTF8 = some source := by
    unfold String.fromUTF8?
    rw [String.toUTF8_eq_toByteArray, dif_pos source.isValidUTF8]
    rfl
  rw [decode?, hvalid]
  rfl

/-- A file is checked as the text that it holds, however its line breaks are written. -/
theorem ofSource_joinBreaks (options : Options) (source : String) :
    Verdict.ofSource options (String.ofList (Text.joinBreaks source.toList)) =
      Verdict.ofSource options source := by
  rw [Verdict.ofSource, Text.lines_joinBreaks]
  rfl

/-- A file name among the arguments is not asked for. -/
theorem fileName_of_argument {i : Invocation} {name : String} (hfile : i.file? = some name)
    (hname : name ≠ "") (input : String) : i.fileName input = ("", .ok name) := by
  have hkept : i.file?.filter (· ≠ "") = some name := by
    rw [hfile, Option.filter_some, if_pos (by simpa using hname)]
  rw [Invocation.fileName, hkept]

/-- The run of a check on a file that holds a text. -/
theorem run_source (i : Invocation) (time : String) (threshold : Level) (name source : String) :
    ∃ err, i.run time threshold name (.ok source.toUTF8) =
      { out := report i.tokens (Verdict.ofSource i.options source)
        tally? := some (.ofVerdicts (Verdict.ofSource i.options source))
        err
        ending := .finished
          (if Verdict.invalidCount (Verdict.ofSource i.options source) = 0 then 0 else 1) } := by
  rw [Invocation.run, decode?_toUTF8]
  dsimp only
  -- what is checked is the text with other line breaks, which makes no difference
  rw [ofSource_joinBreaks]
  exact ⟨_, rfl⟩

/-- The check of a file that holds a text comes to its end. It prints the rows for the text and a
summary, and the exit code says if all lines are valid. -/
theorem execute_source {arguments : List String} {name : String} {options : Options}
    {tokens : Bool} {read : String → Except ReadFault ByteArray} {source : String}
    (hasks : AsksFor arguments name options tokens) (hread : read name = .ok source.toUTF8)
    (time input : String) :
    (execute time read arguments input).ending =
        .finished (if Finding.allValid (findings options source) then 0 else 1) ∧
      ∀ duration, (execute time read arguments input).text duration = unlines
        (outputRows options tokens source ++ [summaryRow duration (findings options source)]) := by
  rcases hasks with ⟨hname, level, hrequest⟩
  rcases run_source ⟨some name, options, tokens, some level⟩ time level name source with
    ⟨err, hrun⟩
  -- the arguments are accepted, name the file, and the file is there
  have hresult : execute time read arguments input =
      { out := report tokens (Verdict.ofSource options source)
        tally? := some (.ofVerdicts (Verdict.ofSource options source))
        err
        ending := .finished
          (if Verdict.invalidCount (Verdict.ofSource options source) = 0 then 0 else 1) } := by
    rw [execute, hrequest]
    dsimp only
    rw [fileName_of_argument rfl hname]
    dsimp only
    rw [hread, hrun, String.empty_append]
  rw [hresult]
  constructor
  · simp only [Finding.allValid_eq_true_iff, findings, Finding.invalidCount_map]
  · intro duration
    rw [unlines_append, ← report_ofSource, findings, ← render_tally]
    rfl

end Command

/-! ## All together -/

open Command Service in
/-- All front ends report the same. There is one finding for each line of the source text, numbered
from one; the service answers with these findings unless there are more lines than are allowed; and
the command, with a file that holds the text, prints one row for each finding, a row of tokens after
it if they are asked for and the line has any, and a summary. Every combination of options can be
asked for, no row has a line break, and no two lists of findings have the same rows. -/
theorem front_ends_agree {options : Options} {source : String} {arguments : List String}
    {name : String} {tokens : Bool} {read : String → Except ReadFault ByteArray}
    (hasks : AsksFor arguments name options tokens) (hread : read name = .ok source.toUTF8)
    (settings : Settings) (elapsed : ℤ → Duration) (includeTokens : Bool) (time input : String) :
    let vs := Verdict.ofSource options source
    let fs := findings options source
    let count := (Text.lines source).length
    let response := validate settings elapsed ⟨.ofOptions options, source, includeTokens⟩
    let result := execute time read arguments input
    -- the verdicts
    (vs.map Verdict.line = Text.lines source ∧ fs.length = count ∧
      fs.map Finding.number = (List.range' 1 count).map Nat.cast ∧
      Finding.validCount fs + Finding.invalidCount fs = fs.length) ∧
    -- the service
    (settings.maxLines < count → response = .tooManyLines count settings.maxLines) ∧
    (count ≤ settings.maxLines → ∃ body, response = .ok body ∧ Answers body fs) ∧
    -- the command
    AsksFor (commandLine options tokens name) name options tokens ∧
    result.ending = .finished (if Finding.allValid fs then 0 else 1) ∧
    (∀ duration, result.text duration =
      unlines (outputRows options tokens source ++ [summaryRow duration fs])) ∧
    (∀ row ∈ outputRows options tokens source, Text.Unbroken row.toList) ∧
    (∀ f ∈ fs, Text.OnOneLine f.row) ∧
    ∀ gs : List Finding, gs.map Finding.row = fs.map Finding.row → gs = fs := by
  dsimp only
  refine ⟨⟨Verdict.map_line_ofSource options source, length_findings options source,
    map_number_findings options source, Finding.validCount_add_invalidCount _⟩, ?_, ?_,
    asksFor_commandLine options tokens hasks.1, (execute_source hasks hread time input).1,
    (execute_source hasks hread time input).2, fun _ => unbroken_of_mem_outputRows,
    fun _ => onOneLine_of_mem_findings, ?_⟩
  · intro hmany
    rw [validate_eq, if_pos hmany]
  · intro hfew
    rw [validate_eq, if_neg (by omega)]
    exact ⟨_, rfl, answers_validateBody includeTokens elapsed (Verdict.ofSource options source)⟩
  · intro gs hrows
    exact List.map_injective_iff.mpr Finding.row_injective hrows

/-- A text with two kinds of line breaks, whose second line has a number with two points. -/
def mixedBreaks : String :=
  "printf(\"%d\", 1);\r\nprintf(\"%f\", 1.2.3);\r"

/-- A directory with this text in a file whose name looks like an option. -/
def mixedBreaksFile : Command.Workspace :=
  ⟨[(["-x"], mixedBreaks.toUTF8)], []⟩

open Command Service in
/-- The command checks this file, and a service that allows for one line refuses the text. -/
theorem front_ends_mixedBreaks :
    AsksFor ["--tokens", "--strict-numbers", "--", "-x"] "-x" ⟨⟨true, false⟩, false⟩ true ∧
      mixedBreaksFile.read "-x" = .ok mixedBreaks.toUTF8 ∧
      validate { maxLines := 1 } (fun _ => ⟨25, 2⟩)
          ⟨.ofOptions ⟨⟨true, false⟩, false⟩, mixedBreaks, false⟩ = .tooManyLines 2 1 ∧
      (execute "" mixedBreaksFile.read
        ["--tokens", "--strict-numbers", "--", "-x"] "").ending = .finished 1 ∧
      (execute "" mixedBreaksFile.read
        ["--tokens", "--strict-numbers", "--", "-x"] "").text "0.25" =
        "Line 1: valid command.\n" ++
        "    Printf(printf) LParen(() StringLiteral(\"%d\") Comma(,) Number(1) RParen()) " ++
        "Semicolon(;) EndOfInput\n" ++
        "Line 2: invalid command. [malformed number '1.2.3' at column 14]\n" ++
        "Lines: 2 | Valid: 1 | Invalid: 1 | Time: 0.25 ms\n" := by
  have hasks : AsksFor ["--tokens", "--strict-numbers", "--", "-x"] "-x" ⟨⟨true, false⟩, false⟩
      true :=
    ⟨by decide, .warning, by rfl⟩
  have hread : mixedBreaksFile.read "-x" = .ok mixedBreaks.toUTF8 := by rfl
  -- what is evaluated here is the text and not the runs; they follow from the theorem
  have hcount : (Text.lines mixedBreaks).length = 2 := by decide +kernel
  obtain ⟨_, hmany, _, _, hending, htext, _⟩ :=
    front_ends_agree hasks hread { maxLines := 1 } (fun _ => ⟨25, 2⟩) false "" ""
  rw [hcount] at hmany
  refine ⟨hasks, hread, hmany (by decide), ?_, ?_⟩
  · exact hending.trans (by decide +kernel)
  · exact (htext "0.25").trans (by decide +kernel)

end PrintfLint
