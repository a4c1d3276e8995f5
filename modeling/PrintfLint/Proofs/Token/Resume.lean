import PrintfLint.Proofs.Token.Fault
import PrintfLint.Proofs.Token.Seam
import PrintfLint.Token.Cursor

/-!
# PrintfLint.Proofs.Token.Resume — scans that are taken up again

* `Cursor.Passes` — a fault between two places of a cursor;
* `Cursor.Resumes` — the tokens that are left are those of the rest of the line as a line of its
  own, further on, or the fault is its fault, and then the cursor has passed that;
* `Cursor.resumes_tokenize` — this is what a cursor does;
* `Cursor.Fails` — faults that are met in turn, each from where the last one left the cursor;
* `Cursor.tokenize_recovers` — such faults come later and later in the line, and in the end there
  are none.

The measure of a run is what is left of the line: each fault takes a character of it at least.
-/

namespace PrintfLint

variable {strict : Strictness} {start : Position} {cs : List Char} {e : LexicalError}

namespace Cursor

/-! ## One scan -/

/-- The fault is ahead of the cursor, and behind it when that stands at index `i` of its line. -/
structure Passes (s : Cursor) (e : LexicalError) (i : ℕ) : Prop where
  ahead : s.index ≤ e.position
  behind : e.position < i
  later : s.index < i
  le_length : i ≤ s.line.length

/-- The command finds what a scan of the rest of the line finds, further on. The cursor is at the
end of the line after it, or has passed the fault. -/
def Resumes (s : Cursor) (r : Except Failure Reply × Cursor) :
    Except LexicalError TokenSeq → Prop
  | .ok ts => r = (.ok (.tokens (ts.move (Position.advance · s.index))),
      { s with index := s.line.length })
  | .error e => ∃ e' i, r = (.error (.lexical e'), { s with index := i }) ∧
      e.Further s.index e' ∧ s.Passes e' i

variable {s s' : Cursor} {es : List LexicalError}

theorem length_rest (h : s.index ≤ s.line.length) :
    s.index + s.rest.length = s.line.length := by
  rw [rest, List.length_drop]
  omega

/-- The cursor passes a fault of the rest of the line. -/
theorem behind_of_scan (h : s.index ≤ s.line.length)
    (hscan : TokenSeq.scan s.strict s.position s.rest = .error e) :
    ∃ i, s.behind e = { s with index := i } ∧ s.Passes e i := by
  obtain ⟨us, ts, rest, hrest, -, hfault⟩ := TokenSeq.exists_fault_of_scan hscan
  obtain ⟨k, hspan, hpos, hle, hfrom, hto⟩ := hfault.exists_span
  have hlength := length_rest h
  rw [hrest, List.length_append] at hlength
  simp only [position, Position.ofIndex, Position.advance] at hspan hfrom hto
  refine ⟨s.index + us.length + k, ?_, ⟨by omega, by omega, by omega, by omega⟩⟩
  rw [behind, hspan, ← Int.natCast_add, ← Int.natCast_add, Int.toNat_natCast]

/-- A scan may be taken up anywhere in a line. -/
theorem resumes_tokenize (h : s.index ≤ s.line.length) :
    s.Resumes (s.perform .tokenize)
      (TokenSeq.ofLine s.strict (String.ofList s.rest) s.number) := by
  have hscan := TokenSeq.scan_ofIndex s.strict s.number s.index s.rest
  -- the scan is that of the rest as a line, moved; with a fault the cursor stands behind that
  cases hline : TokenSeq.ofLine s.strict (String.ofList s.rest) s.number with
  | ok ts =>
    rw [hline] at hscan
    simp only [Resumes, perform, position, hscan, TokenSeq.moveScan, length_rest h]
  | error e =>
    rw [hline] at hscan
    obtain ⟨i, hbehind, hpasses⟩ := behind_of_scan h hscan
    refine ⟨_, i, ?_, e.further_move s.index, hpasses⟩
    simp only [perform, position, hscan, TokenSeq.moveScan, hbehind]

/-! ## Scans in turn -/

/-- The cursor is told again and again to read all tokens that are left, and meets these faults. -/
inductive Fails : Cursor → List LexicalError → Cursor → Prop where
  | nil {s : Cursor} : Fails s [] s
  | cons {s s₁ s' : Cursor} {e : LexicalError} {es : List LexicalError}
      (first : s.perform .tokenize = (.error (.lexical e), s₁)) (more : Fails s₁ es s') :
      Fails s (e :: es) s'

/-- A fault brings the cursor on in its line. -/
theorem exists_index_of_fails {s₁ : Cursor} (h : s.index ≤ s.line.length)
    (hfails : s.perform .tokenize = (.error (.lexical e), s₁)) :
    ∃ i, s₁ = { s with index := i } ∧ s.Passes e i := by
  have hresumes := resumes_tokenize h
  rw [hfails] at hresumes
  -- a scan that fails has met a fault of the rest, and that is the one before the cursor
  cases hline : TokenSeq.ofLine s.strict (String.ofList s.rest) s.number with
  | ok ts =>
    rw [hline] at hresumes
    cases hresumes
  | error e₀ =>
    rw [hline] at hresumes
    obtain ⟨e', i, hsame, -, hpasses⟩ := hresumes
    cases hsame
    exact ⟨i, rfl, hpasses⟩

/-- Faults that are met in turn come later and later, and each of them takes up a part of the
line. -/
theorem Fails.increasing (hrun : Fails s es s') (h : s.index ≤ s.line.length) :
    es.Pairwise (fun a b => a.position < b.position) ∧ (∀ e ∈ es, s.index ≤ e.position) ∧
      ∃ i, s' = { s with index := i } ∧ s.index + es.length ≤ i ∧ i ≤ s.line.length := by
  induction hrun with
  | nil => exact ⟨.nil, nofun, _, rfl, le_rfl, h⟩
  | cons first _ ih =>
    obtain ⟨i, rfl, hpasses⟩ := exists_index_of_fails h first
    obtain ⟨hpairwise, hpositions, j, hlast, hcount, hline⟩ := ih hpasses.le_length
    have hlater := hpasses.later
    dsimp only at hpositions hcount
    refine ⟨List.pairwise_cons.mpr ⟨?_, hpairwise⟩, ?_, j, hlast, ?_, hline⟩
    · -- the next scan starts behind the first fault
      exact fun b hb => Int.lt_of_lt_of_le hpasses.behind (hpositions b hb)
    · intro b hb
      rcases List.mem_cons.mp hb with rfl | hb
      · exact hpasses.ahead
      · have hbehind := hpositions b hb
        omega
    · rw [List.length_cons]
      omega

/-- In the end there is no fault any more. -/
theorem exists_fails (h : s.index ≤ s.line.length) :
    ∃ es s' ts, Fails s es s' ∧
      s'.perform .tokenize = (.ok (.tokens ts), { s with index := s.line.length }) := by
  -- by what is left of the line, which each fault makes shorter
  induction hleft : s.line.length - s.index using Nat.strong_induction_on generalizing s with
  | _ left ih =>
    have hresumes := resumes_tokenize h
    cases hline : TokenSeq.ofLine s.strict (String.ofList s.rest) s.number with
    | ok ts =>
      rw [hline] at hresumes
      exact ⟨[], s, _, .nil, hresumes⟩
    | error e =>
      rw [hline] at hresumes
      obtain ⟨e', i, hfails, -, hpasses⟩ := hresumes
      have hlater := hpasses.later
      have hend := hpasses.le_length
      have hless : s.line.length - i < left := by omega
      obtain ⟨es, s', ts, hrun, hdone⟩ := ih _ hless (s := { s with index := i }) hend rfl
      exact ⟨e' :: es, s', ts, .cons hfails hrun, hdone⟩

/-- A scan may be taken up anywhere in a line. Taken up again behind each fault, it meets faults
that come later and later, at most one for each character that was left, and in the end it reads the
rest of the line. -/
theorem tokenize_recovers (h : s.index ≤ s.line.length) :
    s.Resumes (s.perform .tokenize)
        (TokenSeq.ofLine s.strict (String.ofList s.rest) s.number) ∧
      (∀ es s', Fails s es s' →
        es.Pairwise (fun a b => a.position < b.position) ∧
          es.length ≤ s.line.length - s.index ∧
            ∃ i, s' = { s with index := i } ∧ i ≤ s.line.length) ∧
      ∃ es s' ts, Fails s es s' ∧
        s'.perform .tokenize = (.ok (.tokens ts), { s with index := s.line.length }) := by
  refine ⟨resumes_tokenize h, ?_, exists_fails h⟩
  intro es s' hrun
  obtain ⟨hpairwise, -, i, hlast, hcount, hline⟩ := hrun.increasing h
  exact ⟨hpairwise, by omega, i, hlast, hline⟩

/-- Each of the three faults leaves the cursor somewhere else. -/
theorem tokenize_recovers_threeFaults :
    let s : Cursor := ⟨"x ? 1.2.3 \"a".toList, ⟨true, true⟩, 7, 1⟩
    let faults : List LexicalError := [.unexpected '?' (.ofIndex 7 2),
      .malformedNumber ['1', '.', '2', '.', '3'] (.ofIndex 7 4),
      .unterminated (.ofIndex 7 10) (.ofIndex 7 12)]
    s.index ≤ s.line.length ∧ Fails s faults { s with index := 12 } ∧
      faults.Pairwise (fun a b => a.position < b.position) ∧
        faults.length ≤ s.line.length - s.index := by
  intro s faults
  have hindex : s.index ≤ s.line.length := by decide
  -- where the cursor stands after each fault is evaluated, one after the other
  have hrun : Fails s faults { s with index := 12 } := by
    have hfirst : s.perform .tokenize = (.error (.lexical (.unexpected '?' (.ofIndex 7 2))),
        { s with index := 3 }) := by
      decide +kernel
    have hnext : Cursor.perform { s with index := 3 } .tokenize =
        (.error (.lexical (.malformedNumber ['1', '.', '2', '.', '3'] (.ofIndex 7 4))),
          { s with index := 9 }) := by
      decide +kernel
    have hlast : Cursor.perform { s with index := 9 } .tokenize =
        (.error (.lexical (.unterminated (.ofIndex 7 10) (.ofIndex 7 12))),
          { s with index := 12 }) := by
      decide +kernel
    exact .cons hfirst (.cons hnext (.cons hlast .nil))
  obtain ⟨hpairwise, hcount, -⟩ := (tokenize_recovers hindex).2.1 _ _ hrun
  exact ⟨hindex, hrun, hpairwise, hcount⟩

end Cursor

end PrintfLint
