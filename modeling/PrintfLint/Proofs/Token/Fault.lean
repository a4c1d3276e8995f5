import Mathlib.Data.List.Basic
import PrintfLint.Proofs.Token.Front

/-!
# PrintfLint.Proofs.Token.Fault — where a line goes wrong

* `secondPoint_eq` — the second point of a number is where it seems to be;
* `Breaks` — where a scan breaks off: all before that is sound, and all that goes on from there
  fails;
* `Fault.breaks` — this is the character of a fault;
* `Fault.exists_span` — what is read of a fault is not empty and goes beyond its character;
* `PointedTwice` — a number with its second point;
* `FirstFault` — what is known of the first fault of a line;
* `TokenSeq.ofLine_firstFault` — a lexical error reports the first fault of its line.

A scan finds out about a fault later than at the character that it reports: a number is read to its
end before its points are counted, and a literal up to the end of the line. So the lines that break
off before that character are looked at, and those that go on from it in some other way.
-/

namespace PrintfLint

open Lexeme

variable {strict : Strictness} {start : Position} {cs us vs ws rest : List Char}
  {ts : List Token} {e : LexicalError}

/-! ## Points of numbers -/

/-- Where there are two points, the second one comes after text with one. -/
theorem exists_secondPoint {text : List Char} (h : 2 ≤ text.count '.') :
    ∃ us vs, text = us ++ '.' :: vs ∧ us.count '.' = 1 := by
  have hfirst : '.' ∈ text := List.count_pos_iff.mp (by omega)
  obtain ⟨us, rest, rfl, hus⟩ := List.eq_append_cons_of_mem hfirst
  rw [List.count_append, List.count_eq_zero_of_not_mem hus, List.count_cons_self] at h
  have hsecond : '.' ∈ rest := List.count_pos_iff.mp (by omega)
  obtain ⟨vs, ws, rfl, hvs⟩ := List.eq_append_cons_of_mem hsecond
  refine ⟨us ++ '.' :: vs, ws, by simp, ?_⟩
  rw [List.count_append, List.count_eq_zero_of_not_mem hus, List.count_cons_self,
    List.count_eq_zero_of_not_mem hvs]

theorem secondPoint_eq (hus : us.count '.' = 1) (vs : List Char) :
    LexicalError.secondPoint (us ++ '.' :: vs) = us.length := by
  have hfirst : '.' ∈ us := List.count_pos_iff.mp (by omega)
  obtain ⟨as, bs, rfl, has⟩ := List.eq_append_cons_of_mem hfirst
  -- one point is in front of the split, and none is between it and the second one
  rw [List.count_append, List.count_cons_self] at hus
  have hbs : '.' ∉ bs := List.count_eq_zero.mp (by omega)
  have hidx : (as ++ '.' :: bs ++ '.' :: vs).idxOf '.' = as.length := by
    rw [List.append_assoc, List.idxOf_append_of_notMem has, List.cons_append,
      List.idxOf_cons_self, Nat.add_zero]
  have hdrop : (as ++ '.' :: bs ++ '.' :: vs).drop (as.length + 1) = bs ++ '.' :: vs := by
    rw [List.append_assoc, ← List.drop_drop, List.drop_left]
    rfl
  simp only [LexicalError.secondPoint, hidx, hdrop]
  rw [List.idxOf_append_of_notMem hbs, List.idxOf_cons_self, List.length_append, List.length_cons]
  omega

/-- A number may be broken off, and then go on in any way. -/
theorem Shape.number_resume (h : Shape .number (us ++ vs) rest) (hus : us ≠ [])
    (zs : List Char) :
    Shape .number (us ++ zs.takeWhile isNumberPart) (zs.dropWhile isNumberPart) := by
  obtain ⟨c, us, rfl⟩ := List.exists_cons_of_ne_nil hus
  have hrun := longestRun_takeWhile isNumberPart zs
  cases h with
  -- the digits and points in front are those of the old number, and the others are as many as there
  -- are
  | number hc run =>
    refine .number hc ⟨?_, hrun.2⟩
    intro d hd
    rcases List.mem_append.mp hd with hd | hd
    · exact run.1 d (List.mem_append_left vs hd)
    · exact hrun.1 d hd

/-! ## The character of a fault -/

/-- How far the character of a fault is behind the place where its lexeme starts. -/
def LexicalError.offset : LexicalError → ℕ
  | unexpected .. => 0
  | malformedNumber text _ => secondPoint text
  | unterminated .. => 0

/-- A scan of the text breaks off `k` characters behind its start: it succeeds on what comes before,
and, unless it is a literal that is not closed, on no text that goes on from there. -/
structure Breaks (strict : Strictness) (start : Position) (cs : List Char) (e : LexicalError)
    (k : ℕ) : Prop where
  position_eq : e.position = start.index + k
  character_eq : cs[k]? = some e.character
  sound : ∃ s, TokenSeq.scan strict start (cs.take k) = .ok s
  lasting : (∀ a b, e ≠ .unterminated a b) → ∀ zs, ∃ e',
    TokenSeq.scan strict start (cs.take (k + 1) ++ zs) = .error e' ∧
      e'.position = e.position ∧ e'.character = e.character

theorem breaks_unexpected {c : Char} (hc : Text.isBlank c = false) (hnone : next? c cs = none) :
    Breaks strict start (c :: cs) (.unexpected c start) 0 where
  position_eq := (Int.add_zero _).symm
  character_eq := rfl
  sound := ⟨_, TokenSeq.scan_nil⟩
  lasting := by
    intro _ zs
    have hother : next? c zs = none :=
      Shape.next?_eq_none_iff.mpr (Shape.next?_eq_none_iff.mp hnone)
    exact ⟨_, TokenSeq.scan_unexpected hc hother, rfl, rfl⟩

theorem breaks_unterminated :
    Breaks strict start ('"' :: cs) (.unterminated start (start.advance (cs.length + 1))) 0 where
  position_eq := (Int.add_zero _).symm
  character_eq := rfl
  sound := ⟨_, TokenSeq.scan_nil⟩
  lasting := fun h => absurd rfl (h _ _)

theorem breaks_malformed {text : List Char} (shape : Shape .number text rest)
    (hstrict : strict.numbers = true) (hpoints : 2 ≤ text.count '.') :
    Breaks strict start (text ++ rest) (.malformedNumber text start)
      (LexicalError.secondPoint text) := by
  obtain ⟨us, vs, rfl, hus⟩ := exists_secondPoint hpoints
  have hne : us ≠ [] := by
    rintro rfl
    cases hus
  rw [secondPoint_eq hus]
  refine ⟨?_, by simp [LexicalError.character], ?_, ?_⟩
  · rw [LexicalError.position, secondPoint_eq hus]
  · -- up to its second point the number is sound
    have hsound : Shape .number (us ++ []) [] := shape.number_resume hne []
    rw [List.append_nil] at hsound
    have haccept : accept strict start ⟨.number, us, []⟩ = .ok (token start ⟨.number, us, []⟩) := by
      simp [accept, refusal?, hus]
    have hscan : TokenSeq.scan strict start (us ++ []) = _ := TokenSeq.scan_shape hsound
    rw [List.append_nil, haccept] at hscan
    rw [List.append_assoc, List.take_left]
    exact ⟨_, hscan.trans (by rw [TokenSeq.scan_nil]; rfl)⟩
  · -- from its second point on it stays a number with two points
    intro _ zs
    have hpoint : Shape .number ((us ++ ['.']) ++ vs) rest := by simpa using shape
    have hlonger := hpoint.number_resume (by simp) zs
    have hmany : 2 ≤ (us ++ ['.'] ++ zs.takeWhile isNumberPart).count '.' := by
      simp only [List.count_append, hus, List.count_singleton_self]
      omega
    have hfault : Fault strict start _ _ := .malformed hlonger hstrict hmany
    rw [List.append_assoc, List.takeWhile_append_dropWhile] at hfault
    have htake : (us ++ '.' :: vs ++ rest).take (us.length + 1) = us ++ ['.'] := by
      rw [List.append_assoc, List.take_length_add_append]
      rfl
    rw [htake]
    refine ⟨_, hfault.scan_eq, ?_, rfl⟩
    rw [LexicalError.position, LexicalError.position, secondPoint_eq hus, List.append_assoc,
      List.singleton_append, secondPoint_eq hus]

/-- A scan breaks off at the character of its fault. -/
theorem Fault.breaks (h : Fault strict start cs e) : Breaks strict start cs e e.offset := by
  cases h with
  | unexpected hc hnone => exact breaks_unexpected hc hnone
  | malformed shape hstrict hpoints => exact breaks_malformed shape hstrict hpoints
  | unterminated => exact breaks_unterminated

/-- What is read of a fault is not empty, and its character is a part of it. -/
theorem Fault.exists_span (h : Fault strict start cs e) :
    ∃ k : ℕ, e.span = ⟨start, start.advance k⟩ ∧ 0 < k ∧ k ≤ cs.length ∧
      start.index ≤ e.position ∧ e.position < start.index + k := by
  -- one character, a number, or the rest of the line from a quotation mark on
  cases h with
  | unexpected =>
    refine ⟨1, rfl, by omega, by simp, ?_⟩
    simp only [LexicalError.position]
    omega
  | @malformed text rest shape _ hpoints =>
    obtain ⟨us, vs, rfl, hus⟩ := exists_secondPoint hpoints
    refine ⟨(us ++ '.' :: vs).length, rfl, List.length_pos_of_ne_nil shape.ne_nil, by simp, ?_⟩
    simp only [LexicalError.position, secondPoint_eq hus, List.length_append, List.length_cons]
    omega
  | @unterminated us =>
    refine ⟨us.length + 1, rfl, by omega, by simp, ?_⟩
    simp only [LexicalError.position]
    omega

/-- A scan breaks off in a text where it does in the part that is left when a fault is met. -/
theorem Scanned.breaks (hread : Scanned strict rest start us ts) (hrest : rest ≠ []) {k : ℕ}
    (h : Breaks strict (start.advance us.length) rest e k) :
    Breaks strict start (us ++ rest) e (us.length + k) := by
  -- texts that start as the rest does are read from there on
  have hother : ∀ other, (∀ c ∈ other.head?, c ∈ rest.head?) →
      TokenSeq.scan strict start (us ++ other) =
        (TokenSeq.scan strict (start.advance us.length) other).map (TokenSeq.prepend ts) := by
    intro other hhead
    exact (hread.before_same hrest hhead).scan_append
  obtain ⟨c, rest, rfl⟩ := List.exists_cons_of_ne_nil hrest
  refine ⟨?_, ?_, ?_, ?_⟩
  · have hposition := h.position_eq
    simp only [Position.advance] at hposition
    push_cast
    omega
  · rw [List.getElem?_append_right (by omega), Nat.add_sub_cancel_left]
    exact h.character_eq
  · rcases h.sound with ⟨s, hs⟩
    rw [List.take_length_add_append, hother, hs]
    · exact ⟨_, rfl⟩
    · intro d hd
      rw [List.head?_take] at hd
      split at hd
      · cases hd
      · exact hd
  · intro hne zs
    rcases h.lasting hne zs with ⟨e', he', hposition, hcharacter⟩
    refine ⟨e', ?_, hposition, hcharacter⟩
    rw [Nat.add_assoc, List.take_length_add_append, List.append_assoc, hother, he']
    · rfl
    · exact fun d hd => hd

/-! ## Lines -/

/-- A scan that is not strict reads a number from index `i` up to `j`, where its digits and points
end, and the second of its points is at index `p`. -/
structure PointedTwice (line : String) (number : Int) (i p j : ℕ) : Prop where
  read : ∃ s t, TokenSeq.ofLine {} (String.ofList (line.toList.take j)) number = .ok s ∧
    s.body.getLast? = some t ∧ t.kind = .number ∧
      t.span = ⟨.ofIndex number i, .ofIndex number j⟩
  whole : ∀ c ∈ line.toList[j]?, isNumberPart c = false
  lt_point : i < p
  point_lt : p < j
  point : line.toList[p]? = some '.'
  second : ((line.toList.take p).drop i).count '.' = 1

/-- The line goes wrong at index `p` and not before: what comes before is sound, and what goes on
from there in any way goes wrong at the same character, if that is not the start of a literal that
never ends. The span of the error is the character, the literal, or the number. -/
structure FirstFault (strict : Strictness) (line : String) (number : Int) (e : LexicalError)
    (p : ℕ) : Prop where
  position_eq : e.position = p
  lt_length : p < line.toList.length
  character_eq : line.toList[p]? = some e.character
  before : ∃ s, TokenSeq.ofLine strict (String.ofList (line.toList.take p)) number = .ok s
  lasting : (∀ a b, e ≠ .unterminated a b) → ∀ other : String,
    line.toList.take (p + 1) <+: other.toList → ∃ e',
      TokenSeq.ofLine strict other number = .error e' ∧ e'.position = p ∧
        e'.character = e.character
  unexpected : ∀ c a, e = .unexpected c a →
    e.span = ⟨.ofIndex number p, .ofIndex number (p + 1)⟩
  unterminated : ∀ a b, e = .unterminated a b →
    line.toList[p]? = some '"' ∧ '"' ∉ line.toList.drop (p + 1) ∧
      e.span = ⟨.ofIndex number p, .ofIndex number line.toList.length⟩
  malformed : ∀ text a, e = .malformedNumber text a →
    ∃ i j, e.span = ⟨.ofIndex number i, .ofIndex number j⟩ ∧ PointedTwice line number i p j

section

variable {line : String} {number : Int}

/-- A scan that is not strict reads a lexeme that is met in a line, if the line ends behind it. -/
theorem Scanned.exists_ofLine_take {k : Kind} {text : List Char}
    (hline : line.toList = us ++ (text ++ rest))
    (hread : Scanned strict (text ++ rest) (.ofIndex number 0) us ts)
    (shape : Shape k text rest) :
    ∃ s, TokenSeq.ofLine {} (String.ofList (line.toList.take (us.length + text.length))) number =
        .ok s ∧ s.body = ts ++ [Lexeme.token (.ofIndex number us.length) ⟨k, text, []⟩] := by
  -- what was read in front of the lexeme does not see where it ends
  have hfront : Scanned {} (text ++ []) (.ofIndex number 0) us ts := by
    rw [List.append_nil]
    apply hread.permissive.before_same
    · simp [shape.ne_nil]
    · intro c hc
      rw [List.head?_append, hc]
      rfl
  have hlast : Scanned {} [] (.ofIndex number us.length) text _ :=
    .single (shape.before nofun fun _ _ => rfl) (Token.allowed_permissive _)
  rw [← Position.advance_ofIndex_zero] at hlast
  have hscan := (hfront.append hlast).scan_eq_ok
  rw [Position.advance_ofIndex_zero] at hscan
  rw [hline, List.take_length_add_append, List.take_left, TokenSeq.ofLine, String.toList_ofList]
  exact ⟨_, hscan, TokenSeq.body_prepend_ended ..⟩

/-- The number that a strict scan refuses has its second point where the error says. -/
theorem Scanned.pointedTwice {text : List Char} (hline : line.toList = us ++ (text ++ rest))
    (hread : Scanned strict (text ++ rest) (.ofIndex number 0) us ts)
    (shape : Shape .number text rest) (hpoints : 2 ≤ text.count '.') :
    PointedTwice line number us.length (us.length + LexicalError.secondPoint text)
      (us.length + text.length) := by
  obtain ⟨s, hs, hbody⟩ := hread.exists_ofLine_take hline shape
  -- the line goes on with no character that a number could take
  have hwhole : ∀ c ∈ line.toList[us.length + text.length]?, isNumberPart c = false := by
    intro c hc
    rw [hline, ← List.append_assoc, ← List.length_append, List.getElem?_append_right le_rfl,
      Nat.sub_self, ← List.head?_eq_getElem?] at hc
    exact shape.growsBy_head? c hc
  -- the text is split at its second point, and one point is in front of that
  obtain ⟨as, bs, rfl, has⟩ := exists_secondPoint hpoints
  have hfirst : '.' ∈ as := List.count_pos_iff.mp (by omega)
  have hpos := List.length_pos_of_mem hfirst
  rw [secondPoint_eq has]
  refine ⟨⟨s, _, hs, by rw [hbody]; exact List.getLast?_concat .., rfl, ?_⟩, hwhole, ?_, ?_, ?_, ?_⟩
  · rw [Lexeme.token, Position.advance_ofIndex]
  · omega
  · rw [List.length_append, List.length_cons]
    omega
  · rw [hline]
    simp
  · rw [hline, List.take_length_add_append, List.drop_left, List.append_assoc, List.take_left]
    exact has

theorem FirstFault.of_fault (hline : line.toList = us ++ rest)
    (hread : Scanned strict rest (.ofIndex number 0) us ts)
    (hfault : Fault strict (.ofIndex number us.length) rest e) :
    FirstFault strict line number e (us.length + e.offset) := by
  -- a fault of what is left is a fault of the line, since what is in front has been read
  have hbreaks : Breaks strict (.ofIndex number 0) line.toList e (us.length + e.offset) := by
    rw [hline]
    rw [← Position.advance_ofIndex_zero] at hfault
    exact hread.breaks hfault.ne_nil hfault.breaks
  have hposition : e.position = ((us.length + e.offset : ℕ) : Int) := by
    have hposition := hbreaks.position_eq
    rwa [Position.ofIndex, Int.natCast_zero, Int.zero_add] at hposition
  refine ⟨hposition, (List.getElem?_eq_some_iff.mp hbreaks.character_eq).1, hbreaks.character_eq,
    ?_, ?_, ?_, ?_, ?_⟩
  · obtain ⟨s, hs⟩ := hbreaks.sound
    exact ⟨s, by rwa [TokenSeq.ofLine, String.toList_ofList]⟩
  · -- the lines that go on from here have the same fault, as far as it does not depend on the end
    rintro hne other ⟨zs, hzs⟩
    obtain ⟨e', he', hsame, hcharacter⟩ := hbreaks.lasting hne zs
    rw [hzs] at he'
    exact ⟨e', he', hsame.trans hposition, hcharacter⟩
  · rintro c a rfl
    cases hfault
    rw [LexicalError.span, Position.advance_ofIndex]
    rfl
  · -- what is left of the line is the open literal
    rintro a b rfl
    refine ⟨hbreaks.character_eq, ?_⟩
    cases hfault with
    | @unterminated ws hws _ =>
      rw [LexicalError.span, Position.advance_ofIndex, hline, List.length_append]
      refine ⟨?_, rfl⟩
      rw [LexicalError.offset, Nat.add_zero, ← List.drop_drop, List.drop_left]
      exact hws
  · rintro text a rfl
    cases hfault with
    | malformed shape _ hpoints =>
      refine ⟨us.length, us.length + text.length, ?_, hread.pointedTwice hline shape hpoints⟩
      rw [LexicalError.span, Position.advance_ofIndex]

end

namespace TokenSeq

/-- A lexical error reports the first fault of its line. -/
theorem ofLine_firstFault {line : String} {number : Int}
    (h : ofLine strict line number = .error e) : ∃ p, FirstFault strict line number e p := by
  obtain ⟨us, ts, rest, hline, hread, hfault⟩ := exists_fault_of_scan h
  rw [Position.advance_ofIndex_zero] at hfault
  exact ⟨_, .of_fault hline hread hfault⟩

/-- A number with three points goes wrong at the second of them. -/
theorem ofLine_firstFault_threePoints :
    ofLine ⟨true, false⟩ "x 1.2.3.4;" 1 =
        .error (.malformedNumber ['1', '.', '2', '.', '3', '.', '4'] (.ofIndex 1 2)) ∧
      ∃ p, FirstFault ⟨true, false⟩ "x 1.2.3.4;" 1
        (.malformedNumber ['1', '.', '2', '.', '3', '.', '4'] (.ofIndex 1 2)) p := by
  have h : ofLine ⟨true, false⟩ "x 1.2.3.4;" 1 =
      .error (.malformedNumber ['1', '.', '2', '.', '3', '.', '4'] (.ofIndex 1 2)) := by
    decide +kernel
  exact ⟨h, ofLine_firstFault h⟩

end TokenSeq

end PrintfLint
