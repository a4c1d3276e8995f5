import PrintfLint.Proofs.Token.Front
import PrintfLint.Proofs.Token.Moved

/-!
# PrintfLint.Proofs.Token.Seam — lines that are cut at white space

* `LexicalError.Further`, `TokenSeq.FollowsOn` — the same fault, and the same tokens, further on in
  a line;
* `TokenSeq.scan_ofIndex` — a scan that starts inside a line finds the tokens of the part from there
  on, further on;
* `Scanned.scan_append_blank` — white space behind what has been read starts the scan anew;
* `TokenSeq.ofLine_append_blank` — the tokens of a line are those of its two parts.

Nothing is looked at twice: what comes after white space is read without regard to what comes before
it, and no token or fault before it depends on what comes after it. A literal that is not closed is
the exception, since the white space would become a part of it.
-/

namespace PrintfLint

theorem Position.slides_advance (n : ℕ) : Slides (advance · n) := by
  intro p m
  simp only [advance_advance, Nat.add_comm]

/-- The same fault, `n` characters further on. -/
structure LexicalError.Further (n : ℕ) (e e' : LexicalError) : Prop where
  character_eq : e'.character = e.character
  position_eq : e'.position = e.position + n
  span_eq : e'.span = e.span.move (Position.advance · n)

theorem LexicalError.further_move (e : LexicalError) (n : ℕ) :
    e.Further n (e.move (Position.advance · n)) := by
  refine ⟨by cases e <;> rfl, ?_, ?_⟩
  · cases e <;> simp only [move, position, Position.advance]
    omega
  · cases e <;> simp [move, span, Span.move, Nat.add_comm]

variable {strict : Strictness} {start : Position} {us rest : List Char} {ts : List Token}
  {e : LexicalError}

namespace TokenSeq

/-- The second outcome is what the first becomes behind `n` characters with the given tokens. -/
def FollowsOn (n : ℕ) (ts : List Token) :
    Except LexicalError TokenSeq → Except LexicalError TokenSeq → Prop
  | .ok s, r =>
    ∃ s', r = .ok s' ∧ s'.toList = ts ++ s.toList.map (Token.move (Position.advance · n))
  | .error e, r => ∃ e', r = .error e' ∧ e.Further n e'

theorem followsOn_moveScan (n : ℕ) (ts : List Token) (r : Except LexicalError TokenSeq) :
    FollowsOn n ts r ((moveScan (Position.advance · n) r).map (prepend ts)) := by
  cases r with
  | error e => exact ⟨_, rfl, e.further_move n⟩
  | ok s =>
    refine ⟨_, rfl, ?_⟩
    simp [toList, prepend, move]

/-- A scan that starts inside a line finds what it finds in the rest of the line alone, further
on. -/
theorem scan_ofIndex (strict : Strictness) (number : Int) (n : ℕ) (cs : List Char) :
    scan strict (.ofIndex number n) cs =
      moveScan (Position.advance · n) (ofLine strict (String.ofList cs) number) := by
  rw [ofLine, String.toList_ofList, ← scan_move (Position.slides_advance n),
    Position.advance_ofIndex_zero]

end TokenSeq

/-! ## White space at the seam -/

/-- White space behind what has been read starts the scan anew. -/
theorem Scanned.scan_append_blank (h : Scanned strict [] start us ts)
    (hopen : ∀ t ∈ ts, ¬ t.Unclosed) {w : Char} (hw : Text.isBlank w = true) (vs : List Char) :
    TokenSeq.scan strict start (us ++ w :: vs) =
      (TokenSeq.scan strict (start.advance (us.length + 1)) vs).map (TokenSeq.prepend ts) := by
  have hread : Scanned strict (w :: vs) start us ts := by
    apply h.before
    · intro c hc
      cases hc
      exact .inr hw
    · exact fun t ht hunclosed => absurd hunclosed (hopen t ht)
  rw [hread.scan_append, TokenSeq.scan_blank hw, Position.advance_advance]

/-- What is wrong with a text is wrong with it before white space, too. -/
theorem Fault.append_blank (h : Fault strict start rest e) (he : ∀ p q, e ≠ .unterminated p q)
    {w : Char} (hw : Text.isBlank w = true) (vs : List Char) :
    Fault strict start (rest ++ w :: vs) e := by
  cases h with
  | unexpected hc hnone =>
    exact .unexpected hc (Shape.next?_eq_none_iff.mpr (Shape.next?_eq_none_iff.mp hnone))
  | @malformed text rest shape hstrict hpoints =>
    -- the number does not go on with white space, nor with what stood behind it before
    rw [List.append_assoc]
    refine .malformed (shape.before ?_ nofun) hstrict hpoints
    intro c hc
    rw [List.head?_append, Option.mem_def, Option.or_eq_some_iff] at hc
    rcases hc with hc | ⟨_, hc⟩
    · exact shape.growsBy_head? c hc
    · cases hc
      exact Kind.growsBy_of_isBlank _ hw
  | unterminated => exact absurd rfl (he _ _)

namespace TokenSeq

/-- A line may be cut at white space, unless that belongs to a literal. If the part before it has
tokens and does not end in a literal that is not closed, the line has these tokens, and then those
of the part behind it, further on, or the fault of that part. If something else is wrong with the
part before it, that is wrong with the line. -/
theorem ofLine_append_blank (strict : Strictness) (a b : String) {w : Char}
    (hw : Text.isBlank w = true) (number : Int) :
    (∀ s, ofLine strict a number = .ok s → (∀ t ∈ s.body.getLast?, ¬ t.Unclosed) →
      FollowsOn (a.length + 1) s.body (ofLine strict b number)
        (ofLine strict (a ++ String.singleton w ++ b) number)) ∧
    ∀ e, ofLine strict a number = .error e → (∀ p q, e ≠ .unterminated p q) →
      ofLine strict (a ++ String.singleton w ++ b) number = .error e := by
  have hline : (a ++ String.singleton w ++ b).toList = a.toList ++ w :: b.toList := by simp
  constructor
  · intro s hs hlast
    -- only the last token can be an open literal, and it is none
    have hopen : ∀ t ∈ s.body, ¬ t.Unclosed := by
      intro t ht hunclosed
      have htiles := (tiles_of_ofLine hs).1
      exact hlast t (htiles.getLast?_of_unclosed ht hunclosed) hunclosed
    have hscan := (scanned_of_scan hs).1.scan_append_blank hopen hw b.toList
    rw [Position.advance_ofIndex_zero, scan_ofIndex strict number (_ + 1), String.ofList_toList,
      String.length_toList, ← hline] at hscan
    rw [ofLine.eq_def strict (_ ++ _), hscan]
    exact followsOn_moveScan ..
  · intro e he hne
    obtain ⟨us, ts, rest, ha, hread, hfault⟩ := exists_fault_of_scan he
    -- what was read before the fault is still read, since the fault is not empty
    have hrest : Scanned strict (rest ++ w :: b.toList) (.ofIndex number 0) us ts := by
      apply hread.before_same hfault.ne_nil
      intro c hc
      rwa [List.head?_append_of_ne_nil _ hfault.ne_nil] at hc
    rw [ofLine, hline, ha, List.append_assoc]
    exact hrest.scan_eq_error (hfault.append_blank hne hw b.toList)

/-- A literal that is not closed is refused where it stands behind a name, and a number with two
points where it stands before such a literal. -/
theorem ofLine_append_blank_nameThenQuote :
    ofLine ⟨true, true⟩ "x1" 1 = .ok ⟨[⟨.identifier, "x1", ⟨.ofIndex 1 0, .ofIndex 1 2⟩⟩],
        .ended 1 2, rfl⟩ ∧
      FollowsOn 3 [⟨.identifier, "x1", ⟨.ofIndex 1 0, .ofIndex 1 2⟩⟩]
        (ofLine ⟨true, true⟩ "\"a b" 1) (ofLine ⟨true, true⟩ "x1 \"a b" 1) ∧
      ofLine ⟨true, true⟩ "1.2.3 \"a b" 1 =
        .error (.malformedNumber ['1', '.', '2', '.', '3'] (.ofIndex 1 0)) := by
  have hblank : Text.isBlank ' ' = true := by decide
  have hname : ofLine ⟨true, true⟩ "x1" 1 =
      .ok ⟨[⟨.identifier, "x1", ⟨.ofIndex 1 0, .ofIndex 1 2⟩⟩], .ended 1 2, rfl⟩ := by
    decide +kernel
  have hnumber : ofLine ⟨true, true⟩ "1.2.3" 1 =
      .error (.malformedNumber ['1', '.', '2', '.', '3'] (.ofIndex 1 0)) := by
    decide +kernel
  refine ⟨hname, ?_, ?_⟩
  · exact (ofLine_append_blank ⟨true, true⟩ "x1" "\"a b" hblank 1).1 _ hname (by
      rintro t ht ⟨hkind, _⟩
      cases ht
      cases hkind)
  · exact (ofLine_append_blank ⟨true, true⟩ "1.2.3" "\"a b" hblank 1).2 _ hnumber nofun

end TokenSeq

end PrintfLint
