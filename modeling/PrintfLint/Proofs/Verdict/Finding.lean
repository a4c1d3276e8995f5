import Mathlib
import PrintfLint.Proofs.Verdict.Reason

/-!
# PrintfLint.Proofs.Verdict.Finding — what every report says of a line

* `Finding` — the number of a line, whether the line is valid, and the reason if it is not;
* `Finding.row`, `row_injective` — a row of a report says no less than the finding;
* `Finding.validCount`, `invalidCount` — how many lines are valid, and how many are not;
* `Verdict.finding` — the part of a verdict that every report shows;
* `findings`, `length_findings`, `map_number_findings` — the findings on a source text, one for each
  line, and numbered from one.
-/

namespace PrintfLint

/-- What every report says of a line. -/
structure Finding where
  number : ℤ
  valid : Bool
  reason? : Option String
  /-- There is a reason exactly if the line is not valid. -/
  valid_eq : valid = reason?.isNone
deriving DecidableEq

namespace Finding

/-! ## Rows -/

/-- Findings are equal if they agree in the number and the reason. -/
theorem ext_reason {f g : Finding} (hnumber : f.number = g.number)
    (hreason : f.reason? = g.reason?) : f = g := by
  rcases f with ⟨n, v, r, hv⟩
  rcases g with ⟨m, w, q, hw⟩
  dsimp only at hnumber hreason
  subst hnumber hreason hv hw
  rfl

/-- The finding as a row of a report. -/
def row (f : Finding) : String :=
  match f.reason? with
  | none => "Line " ++ toString f.number ++ ": valid command."
  | some reason => "Line " ++ toString f.number ++ ": invalid command. [" ++ reason ++ "]"

/-- What a row says behind the number of the line. -/
def remark (reason? : Option String) : List Char :=
  match reason? with
  | none => " valid command.".toList
  | some reason => " invalid command. [".toList ++ reason.toList ++ [']']

theorem toList_row (f : Finding) :
    f.row.toList = "Line ".toList ++ ((toString f.number).toList ++ ':' :: remark f.reason?) := by
  have hvalid : ": valid command.".toList = ':' :: " valid command.".toList := by decide
  have hinvalid : ": invalid command. [".toList = ':' :: " invalid command. [".toList := by
    decide
  have hclose : "]".toList = [']'] := by decide
  unfold row remark
  cases f.reason? with
  | none => simp only [String.toList_append, hvalid, List.append_assoc]
  | some reason =>
    simp only [String.toList_append, hinvalid, hclose, List.append_assoc, List.cons_append]

theorem remark_none_ne_some (reason : String) : remark none ≠ remark (some reason) := by
  have hvalid : " valid command.".toList = ' ' :: 'v' :: "alid command.".toList := by decide
  have hinvalid : " invalid command. [".toList = ' ' :: 'i' :: "nvalid command. [".toList := by
    decide
  intro h
  unfold remark at h
  rw [hvalid, hinvalid] at h
  have hsecond : 'v' = 'i' := (List.cons.inj (List.cons.inj h).2).1
  cases hsecond

theorem remark_injective : Function.Injective remark := by
  intro r q h
  -- only the remark on a valid line has no brackets
  cases r with
  | none =>
    cases q with
    | none => rfl
    | some reason => exact absurd h (remark_none_ne_some reason)
  | some reason =>
    cases q with
    | none => exact absurd h.symm (remark_none_ne_some reason)
    | some reason' =>
      unfold remark at h
      rw [List.append_cancel_right_eq, List.append_cancel_left_eq,
        String.toList_inj] at h
      rw [h]

/-- The number in a row ends at the first colon. -/
theorem takeWhile_number (n : ℤ) (rest : List Char) :
    ((toString n).toList ++ ':' :: rest).takeWhile (· ≠ ':') = (toString n).toList := by
  have hdigits : ∀ c ∈ (toString n).toList, decide (c ≠ ':') = true := by
    intro c hc
    rw [decide_eq_true_eq]
    rintro rfl
    rcases Text.mem_toString_int hc with heq | hdigit
    · cases heq
    · cases hdigit
  rw [List.takeWhile_append_of_pos hdigits, List.takeWhile_cons_of_neg (by simp), List.append_nil]

/-- Different findings have different rows. -/
theorem row_injective : Function.Injective row := by
  intro f g h
  have hchars := congrArg String.toList h
  rw [toList_row, toList_row, List.append_cancel_left_eq] at hchars
  -- a reason may hold colons as well, but the number ends at the first one
  have hdigits : (toString f.number).toList = (toString g.number).toList := by
    rw [← takeWhile_number f.number, hchars, takeWhile_number]
  have hremark : remark f.reason? = remark g.reason? := by
    rw [hdigits, List.append_cancel_left_eq] at hchars
    exact (List.cons.inj hchars).2
  rw [String.toList_inj, Int.toString_eq_repr, Int.toString_eq_repr, Int.repr_inj] at hdigits
  exact ext_reason hdigits (remark_injective hremark)

/-! ## Counts -/

/-- How many lines are found to be valid. -/
def validCount (fs : List Finding) : ℕ :=
  fs.countP fun f => f.valid

/-- How many lines are found to be invalid. -/
def invalidCount (fs : List Finding) : ℕ :=
  fs.countP fun f => !f.valid

/-- Are all lines found to be valid? -/
def allValid (fs : List Finding) : Bool :=
  fs.all fun f => f.valid

theorem validCount_add_invalidCount (fs : List Finding) :
    validCount fs + invalidCount fs = fs.length := by
  have hsplit := List.length_eq_countP_add_countP (fun f : Finding => f.valid) (l := fs)
  simpa [validCount, invalidCount] using hsplit.symm

theorem allValid_eq_true_iff (fs : List Finding) : allValid fs = true ↔ invalidCount fs = 0 := by
  simp [allValid, invalidCount, List.countP_eq_zero]

end Finding

/-! ## Findings on a source text -/

namespace Verdict

/-- The part of a verdict that every report shows. -/
def finding (v : Verdict) : Finding where
  number := v.number
  valid := v.valid
  reason? := v.outcome.reason?
  valid_eq := by
    unfold valid Outcome.valid Outcome.reason?
    rw [Option.isNone_map]

theorem render_eq_row (v : Verdict) : v.render = v.finding.row :=
  rfl

/-- The lines of a source text have no line break that could be dropped. -/
theorem ofSource_eq (options : Options) (source : String) :
    ofSource options source =
      ((Text.lines source).zipIdx 1).map fun (line, number) => ofLine options line number := by
  apply List.map_congr_left
  rintro ⟨line, number⟩ hmem
  have hline : line ∈ Text.lines source := List.fst_mem_of_mem_zipIdx hmem
  dsimp only
  rw [Text.trimBreaks_of_unbroken (Text.unbroken_of_mem_lines hline)]

theorem exists_of_mem_ofSource {options : Options} {source : String} {v : Verdict}
    (h : v ∈ ofSource options source) :
    ∃ line ∈ Text.lines source, ∃ number : ℕ, v = ofLine options line number := by
  rw [ofSource_eq] at h
  rcases List.mem_map.mp h with ⟨⟨line, number⟩, hmem, rfl⟩
  exact ⟨line, List.fst_mem_of_mem_zipIdx hmem, number, rfl⟩

@[simp]
theorem ofLine_line (options : Options) (line : String) (number : ℤ) :
    (ofLine options line number).line = line := by
  unfold ofLine
  split <;> rfl

@[simp]
theorem ofLine_number (options : Options) (line : String) (number : ℤ) :
    (ofLine options line number).number = number := by
  unfold ofLine
  split <;> rfl

/-- There is one verdict for each line, in order. -/
theorem map_line_ofSource (options : Options) (source : String) :
    (ofSource options source).map line = Text.lines source := by
  have hline : line ∘ (fun p : String × ℕ => ofLine options p.1 p.2) = Prod.fst := by
    funext p
    exact ofLine_line options p.1 p.2
  rw [ofSource_eq, List.map_map, hline, List.zipIdx_map_fst]

/-- The verdicts are numbered from one. -/
theorem map_number_ofSource (options : Options) (source : String) :
    (ofSource options source).map number =
      (List.range' 1 (Text.lines source).length).map Nat.cast := by
  have hnumber : number ∘ (fun p : String × ℕ => ofLine options p.1 p.2) =
      Nat.cast ∘ Prod.snd := by
    funext p
    exact ofLine_number options p.1 p.2
  rw [ofSource_eq, List.map_map, hnumber, ← List.map_map, List.zipIdx_map_snd]

end Verdict

theorem Finding.invalidCount_map (vs : List Verdict) :
    invalidCount (vs.map Verdict.finding) = Verdict.invalidCount vs := by
  rw [invalidCount, List.countP_map]
  rfl

/-- The findings on a source text. -/
def findings (options : Options) (source : String) : List Finding :=
  (Verdict.ofSource options source).map Verdict.finding

section

variable (options : Options) (source : String)

theorem length_findings : (findings options source).length = (Text.lines source).length := by
  rw [findings, List.length_map, ← Verdict.map_line_ofSource options source, List.length_map]

theorem map_number_findings : (findings options source).map Finding.number =
    (List.range' 1 (Text.lines source).length).map Nat.cast := by
  rw [findings, List.map_map]
  exact Verdict.map_number_ofSource options source

variable {options source}

theorem onOneLine_of_mem_findings {f : Finding} (h : f ∈ findings options source) :
    Text.OnOneLine f.row := by
  rcases List.mem_map.mp h with ⟨v, hv, rfl⟩
  rcases Verdict.exists_of_mem_ofSource hv with ⟨line, _, number, rfl⟩
  exact Verdict.onOneLine_render options line number

end

end PrintfLint
