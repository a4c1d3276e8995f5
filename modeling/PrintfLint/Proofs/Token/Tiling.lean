import PrintfLint.Proofs.Token.Shape
import PrintfLint.Token.Scan

/-!
# PrintfLint.Proofs.Token.Tiling — the tokens of a line tile it

* `Piece` — a token that covers a stretch of a text and has the shape of its kind there;
* `Tiles` — pieces in order, with nothing but white space outside them;
* `scan_eq_ok_iff` — a scan finds the only tiling of the text from its place on;
* `ofLine_eq_ok_iff_tiles` — the same for a whole line.

A tiling says of the text as a whole what a scan does from left to right. The two meet in three
steps: at the end of the text nothing is left to cover (`tiles_end`), white space is covered by no
piece (`tiles_blank`), and any other character starts the first piece (`tiles_cons`).
-/

namespace PrintfLint

theorem Position.advance_ofIndex (number : Int) (i n : Nat) :
    (Position.ofIndex number i).advance n = .ofIndex number (i + n) := by
  simp only [Position.advance, Position.ofIndex, Position.mk.injEq, true_and]
  omega

/-- The end-of-input token of a text of a given length. -/
def Token.ended (number : Int) (length : Nat) : Token :=
  ⟨.endOfInput, "", ⟨.ofIndex number length, .ofIndex number length⟩⟩

/-- The index lies in the span of the token. -/
def Token.Covers (t : Token) (k : Nat) : Prop :=
  t.span.start.index ≤ k ∧ k < t.span.stop.index

/-- The token covers the characters from index `i` up to `j`. -/
structure Piece (cs : List Char) (number : Int) (t : Token) (i j : Nat) : Prop where
  span_eq : t.span = ⟨.ofIndex number i, .ofIndex number j⟩
  lt : i < j
  le_length : j ≤ cs.length
  text_eq : t.text.toList = (cs.drop i).take (j - i)
  shape : Shape t.kind t.text.toList (cs.drop j)
  head_not_blank : ∀ c ∈ t.text.toList.head?, Text.isBlank c = false

/-- The tokens cover the text from index `i` on, except for white space: each is a piece of it, none
overlaps the next, and the characters outside all of them are white space. -/
structure Tiles (cs : List Char) (number : Int) (i : Nat) (ts : List Token) : Prop where
  piece : ∀ t ∈ ts, ∃ a b, i ≤ a ∧ Piece cs number t a b
  ordered : ts.Pairwise fun t u => t.span.stop.index ≤ u.span.start.index
  blank : ∀ k c, i ≤ k → cs[k]? = some c → (∀ t ∈ ts, ¬ t.Covers k) → Text.isBlank c = true

section

variable {cs : List Char} {number : Int} {i j : Nat} {t : Token} {ts : List Token}

/-! ## Pieces -/

theorem Piece.covers_iff (h : Piece cs number t i j) {k : Nat} : t.Covers k ↔ i ≤ k ∧ k < j := by
  simp [Token.Covers, h.span_eq, Position.ofIndex]

theorem Piece.start_index (h : Piece cs number t i j) : t.span.start.index = i := by
  rw [h.span_eq]
  rfl

theorem Piece.stop_index (h : Piece cs number t i j) : t.span.stop.index = j := by
  rw [h.span_eq]
  rfl

theorem Piece.head?_text (h : Piece cs number t i j) : t.text.toList.head? = cs[i]? := by
  have hlt := h.lt
  rw [h.text_eq, List.head?_take, List.head?_drop, if_neg (by omega)]

/-- The pieces of a text from an index on are the lexemes at that index. -/
theorem piece_iff_next? {c : Char} {rest : List Char} (hcs : cs.drop i = c :: rest)
    (hc : Text.isBlank c = false) :
    Piece cs number t i j ↔ ∃ l, Lexeme.next? c rest = some l ∧
      t = l.token (.ofIndex number i) ∧ j = i + l.text.length := by
  have hlength := congrArg List.length hcs
  rw [List.length_drop, List.length_cons] at hlength
  -- a piece has the text between its indices and the shape of a token there, and these are a lexeme
  constructor
  · intro h
    have hlt := h.lt
    have hle := h.le_length
    have hdrop : cs.drop j = (cs.drop i).drop (j - i) := by
      rw [List.drop_drop]
      congr 1
      omega
    have hj : j = i + t.text.toList.length := by
      rw [h.text_eq, List.length_take, List.length_drop]
      omega
    refine ⟨⟨t.kind, t.text.toList, cs.drop j⟩, next?_eq_some_iff.mpr ⟨?_, h.shape⟩, ?_, hj⟩
    · simp only [hdrop, h.text_eq, List.take_append_drop, hcs]
    · have hspan : t.span = ⟨.ofIndex number i, (Position.ofIndex number i).advance
          t.text.toList.length⟩ := by
        rw [Position.advance_ofIndex, ← hj]
        exact h.span_eq
      rw [Lexeme.token, String.ofList_toList, ← hspan]
  · rintro ⟨l, hl, rfl, rfl⟩
    rcases next?_eq_some_iff.mp hl with ⟨htext, hshape⟩
    have hpos := List.length_pos_iff.mpr hshape.ne_nil
    have htake : (cs.drop i).take l.text.length = l.text := by
      rw [hcs, ← htext, List.take_left]
    have hdrop : cs.drop (i + l.text.length) = l.rest := by
      rw [← List.drop_drop, hcs, ← htext, List.drop_left]
    have htotal := congrArg List.length htext
    rw [List.length_append, List.length_cons] at htotal
    refine ⟨?_, by omega, by omega, ?_, ?_, ?_⟩
    · rw [Lexeme.token, Position.advance_ofIndex]
    · simp [Lexeme.token, htake]
    · simpa [Lexeme.token, hdrop] using hshape
    · -- a lexeme starts with the character at its index, which is no white space
      intro d hd
      cases htoken : l.text with
      | nil => exact absurd htoken hshape.ne_nil
      | cons e text =>
        rw [htoken] at htext
        rcases List.cons.inj htext with ⟨rfl, _⟩
        simp only [Lexeme.token, String.toList_ofList, htoken, List.head?_cons] at hd
        cases hd
        exact hc

/-! ## Tilings from left to right -/

/-- At the end of the text there is nothing left to cover. -/
theorem tiles_end (hi : cs.length ≤ i) : Tiles cs number i ts ↔ ts = [] := by
  constructor
  · intro h
    cases ts with
    | nil => rfl
    | cons t ts =>
      -- a piece is not empty and does not go beyond the text
      rcases h.piece t List.mem_cons_self with ⟨a, b, hia, hpiece⟩
      have hlt := hpiece.lt
      have hle := hpiece.le_length
      omega
  · rintro rfl
    refine ⟨by simp, .nil, ?_⟩
    intro k c hk hc _
    rw [List.getElem?_eq_none (by omega)] at hc
    cases hc

/-- White space is covered by no piece. -/
theorem tiles_blank {c : Char} (hcs : cs[i]? = some c) (hc : Text.isBlank c = true) :
    Tiles cs number i ts ↔ Tiles cs number (i + 1) ts := by
  constructor
  · intro h
    refine ⟨?_, h.ordered, fun k d hk => h.blank k d (by omega)⟩
    -- a piece that started here would start with white space
    intro t ht
    rcases h.piece t ht with ⟨a, b, hia, hpiece⟩
    have hne : a ≠ i := by
      rintro rfl
      have hhead := hpiece.head_not_blank c (by rw [hpiece.head?_text, hcs]; rfl)
      rw [hc] at hhead
      cases hhead
    exact ⟨a, b, by omega, hpiece⟩
  · intro h
    refine ⟨?_, h.ordered, ?_⟩
    · intro t ht
      rcases h.piece t ht with ⟨a, b, hia, hpiece⟩
      exact ⟨a, b, by omega, hpiece⟩
    · intro k d hk hd huncovered
      -- this character is blank, and of those behind it the tiling speaks already
      by_cases hki : k = i
      · rw [hki, hcs] at hd
        cases hd
        exact hc
      · exact h.blank k d (by omega) hd huncovered

/-- Any other character starts the first piece. -/
theorem tiles_cons {c : Char} (hcs : cs[i]? = some c) (hc : Text.isBlank c = false) :
    Tiles cs number i ts ↔
      ∃ t us j, ts = t :: us ∧ Piece cs number t i j ∧ Tiles cs number j us := by
  constructor
  · intro h
    -- the character is no white space, so some piece covers it, and starts with it
    obtain ⟨t, ht, hcovers⟩ : ∃ t ∈ ts, t.Covers i := by
      by_contra hnone
      have hblank := h.blank i c le_rfl hcs fun t ht hcovers => hnone ⟨t, ht, hcovers⟩
      rw [hc] at hblank
      cases hblank
    rcases h.piece t ht with ⟨a, j, hia, hpiece⟩
    have ha : a = i := le_antisymm (hpiece.covers_iff.mp hcovers).1 hia
    subst ha
    cases ts with
    | nil => cases ht
    | cons u us =>
      rcases List.pairwise_cons.mp h.ordered with ⟨hfirst, hordered⟩
      -- a piece before this one would have to end where the text starts
      have hsame : t = u := by
        rcases List.mem_cons.mp ht with rfl | hlater
        · rfl
        · rcases h.piece u List.mem_cons_self with ⟨a', b, hia', hbefore⟩
          have hle := hfirst t hlater
          rw [hbefore.stop_index, hpiece.start_index] at hle
          have hlt := hbefore.lt
          omega
      subst hsame
      refine ⟨t, us, j, rfl, hpiece, ?_, hordered, ?_⟩
      · intro v hv
        rcases h.piece v (List.mem_cons_of_mem t hv) with ⟨a', b, _, hpiece'⟩
        have hle := hfirst v hv
        rw [hpiece.stop_index, hpiece'.start_index] at hle
        exact ⟨a', b, by omega, hpiece'⟩
      · intro k d hk hd huncovered
        have hlt := hpiece.lt
        refine h.blank k d (by omega) hd ?_
        intro v hv hcovers'
        rcases List.mem_cons.mp hv with rfl | hv
        · have hkj := (hpiece.covers_iff.mp hcovers').2
          omega
        · exact huncovered v hv hcovers'
  · rintro ⟨t, us, j, rfl, hpiece, hrest⟩
    have hlt := hpiece.lt
    refine ⟨?_, List.pairwise_cons.mpr ⟨?_, hrest.ordered⟩, ?_⟩
    · intro v hv
      rcases List.mem_cons.mp hv with rfl | hv
      · exact ⟨i, j, le_rfl, hpiece⟩
      · rcases hrest.piece v hv with ⟨a, b, hja, hpiece'⟩
        exact ⟨a, b, by omega, hpiece'⟩
    · intro v hv
      rcases hrest.piece v hv with ⟨a, b, hja, hpiece'⟩
      rw [hpiece.stop_index, hpiece'.start_index]
      omega
    · intro k d hk hd huncovered
      have hkj : ¬ k < j := by
        intro hkj
        exact huncovered t List.mem_cons_self (hpiece.covers_iff.mpr ⟨hk, hkj⟩)
      exact hrest.blank k d (by omega) hd fun v hv => huncovered v (List.mem_cons_of_mem t hv)

end

/-! ## Scans -/

namespace TokenSeq

variable {strict : Strictness} {start : Position} {c : Char} {cs : List Char}

theorem scan_nil : scan strict start [] = .ok (ended start) := by
  rw [scan]

theorem scan_blank (hc : Text.isBlank c = true) :
    scan strict start (c :: cs) = scan strict (start.advance 1) cs := by
  rw [scan, if_pos hc]

theorem scan_unexpected (hc : Text.isBlank c = false) (h : Lexeme.next? c cs = none) :
    scan strict start (c :: cs) = .error (.unexpected c start) := by
  rw [scan, hc]
  simp only [Bool.false_eq_true, if_false]
  split
  · rfl
  · simp_all

theorem scan_lexeme (hc : Text.isBlank c = false) {l : Lexeme}
    (h : Lexeme.next? c cs = some l) : scan strict start (c :: cs) =
      match l.accept strict start with
      | .error e => .error e
      | .ok token => (scan strict (start.advance l.text.length) l.rest).map (cons token) := by
  rw [scan, hc]
  -- the lexeme is given, and what remains is whether it is accepted
  simp only [Bool.false_eq_true, if_false]
  split
  · simp_all
  · rename_i l' h'
    rw [h] at h'
    cases h'
    cases l.accept strict start with
    | error e => rfl
    | ok token => cases scan strict (start.advance l.text.length) l.rest <;> rfl

/-- A scan of a text that starts with a token goes on behind it, if it accepts the token. -/
theorem scan_shape {k : Kind} {text rest : List Char} (h : Shape k text rest) :
    scan strict start (text ++ rest) =
      match Lexeme.accept strict start ⟨k, text, rest⟩ with
      | .error e => .error e
      | .ok token => (scan strict (start.advance text.length) rest).map (cons token) := by
  rcases h.next?_eq with ⟨c, cs, hcs, hnext⟩
  have hc : Text.isBlank c = false := by
    rcases List.exists_cons_of_ne_nil h.ne_nil with ⟨d, us, rfl⟩
    rw [← (List.cons.inj hcs).1]
    exact h.head_not_blank
  rw [hcs, scan_lexeme hc hnext]

/-- A scan that is not strict accepts every lexeme. -/
theorem accept_permissive (start : Position) (l : Lexeme) :
    l.accept {} start = .ok (l.token start) := by
  have hnone : l.refusal? {} start = none := by
    unfold Lexeme.refusal?
    split <;> simp
  rw [Lexeme.accept, hnone]

/-- A scan from an index on finds the tiling of the text from there on. -/
theorem scan_eq_ok_iff {cs : List Char} {number : Int} {i : Nat} (hi : i ≤ cs.length)
    {s : TokenSeq} :
    scan {} (.ofIndex number i) (cs.drop i) = .ok s ↔
      Tiles cs number i s.body ∧ s.last = .ended number cs.length := by
  -- on what is left of the text; a lexeme takes several characters at once
  induction hleft : cs.length - i using Nat.strong_induction_on generalizing i s with
  | _ left ih =>
    cases hcs : cs.drop i with
    | nil =>
      have hend : cs.length ≤ i := List.drop_eq_nil_iff.mp hcs
      have hlast : i = cs.length := by omega
      rw [scan_nil, tiles_end hend, hlast]
      rcases s with ⟨body, last, hkind⟩
      simp [ended, Token.ended, eq_comm]
    | cons c rest =>
      have hc : cs[i]? = some c := by rw [← List.head?_drop, hcs]; rfl
      have hlt : i < cs.length := by
        have hlength := congrArg List.length hcs
        rw [List.length_drop, List.length_cons] at hlength
        omega
      by_cases hblank : Text.isBlank c
      · have hrest : rest = cs.drop (i + 1) := by rw [← List.drop_drop, hcs]; rfl
        rw [scan_blank hblank, Position.advance_ofIndex, hrest, tiles_blank hc hblank]
        exact ih (cs.length - (i + 1)) (by omega) (by omega) rfl
      · rw [Bool.not_eq_true] at hblank
        rw [tiles_cons hc hblank]
        cases hnext : Lexeme.next? c rest with
        | none =>
          rw [scan_unexpected hblank hnext]
          constructor
          · intro h
            cases h
          · rintro ⟨⟨t, us, j, _, hpiece, _⟩, _⟩
            rcases (piece_iff_next? hcs hblank).mp hpiece with ⟨l, hl, _⟩
            rw [hnext] at hl
            cases hl
        | some l =>
          have hpiece : Piece cs number (l.token (.ofIndex number i)) i (i + l.text.length) :=
            (piece_iff_next? hcs hblank).mpr ⟨l, hnext, rfl, rfl⟩
          have hwithin := hpiece.le_length
          have hlonger := hpiece.lt
          have hrest : l.rest = cs.drop (i + l.text.length) := by
            rw [← List.drop_drop, hcs, ← (next?_eq_some_iff.mp hnext).1, List.drop_left]
          have ih' := fun s => @ih (cs.length - (i + l.text.length)) (by omega)
            (i + l.text.length) hwithin s rfl
          rw [scan_lexeme hblank hnext, accept_permissive, Position.advance_ofIndex, hrest]
          constructor
          · intro h
            cases hscan : scan {} (.ofIndex number (i + l.text.length))
                (cs.drop (i + l.text.length)) with
            | error e =>
              rw [hscan] at h
              cases h
            | ok s' =>
              rw [hscan] at h
              cases h
              rcases (ih' s').mp hscan with ⟨htiles, hlast⟩
              exact ⟨⟨_, s'.body, _, rfl, hpiece, htiles⟩, hlast⟩
          · rintro ⟨⟨t, us, j, hbody, hfirst, htiles⟩, hlast⟩
            rcases (piece_iff_next? hcs hblank).mp hfirst with ⟨l', hl', rfl, rfl⟩
            rw [hnext] at hl'
            cases hl'
            have hscan := (ih' ⟨us, s.last, s.last_kind⟩).mpr ⟨htiles, hlast⟩
            rcases s with ⟨body, last, hkind⟩
            cases hbody
            simp only [hscan]
            rfl

end TokenSeq

/-- The tokens of a line, an end-of-input token last, are the only ones that tile it. -/
theorem ofLine_eq_ok_iff_tiles (line : String) (number : Int) (ts : List Token) :
    (∃ s, TokenSeq.ofLine {} line number = .ok s ∧ s.toList = ts) ↔
      ∃ body, ts = body ++ [Token.ended number line.toList.length] ∧
        Tiles line.toList number 0 body := by
  constructor
  · rintro ⟨s, hs, rfl⟩
    have hscan : TokenSeq.scan {} (.ofIndex number 0) (line.toList.drop 0) = .ok s := hs
    rcases (TokenSeq.scan_eq_ok_iff (Nat.zero_le _)).mp hscan with ⟨htiles, hlast⟩
    exact ⟨s.body, by rw [TokenSeq.toList, hlast], htiles⟩
  · rintro ⟨body, rfl, htiles⟩
    refine ⟨⟨body, .ended number line.toList.length, rfl⟩, ?_, rfl⟩
    exact (TokenSeq.scan_eq_ok_iff (Nat.zero_le _)).mpr ⟨htiles, rfl⟩

end PrintfLint
