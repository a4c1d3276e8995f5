import PrintfLint.Proofs.Statement.Moved
import PrintfLint.Proofs.Token.Strictness

/-!
# PrintfLint.Proofs.Token.Slice — parts of a line

* `slice`, `tokensBetween` — a part of a line, and the tokens of the line that lie in it;
* `Uncut` — no token lies in the part and goes beyond it;
* `Piece.slice`, `Tiles.slice` — the tokens that lie in such a part tile it;
* `TokenSeq.ofLine_slice` — as a line of its own, the part has these tokens.

A token needs the text behind it to be what it is. In a part of the line that is the same text, or
the start of it, or nothing, and none of them makes the token longer.
-/

namespace PrintfLint

/-- The position `n` characters back in the same line. -/
def Position.back (n : ℕ) (p : Position) : Position :=
  ⟨p.line, p.column - n, p.index - n⟩

theorem Position.back_ofIndex (number : ℤ) {n i : ℕ} (h : n ≤ i) :
    (ofIndex number i).back n = ofIndex number (i - n) := by
  simp only [back, ofIndex, Position.mk.injEq, true_and]
  omega

/-- The part of a line from index `i` up to index `j`. -/
def slice (line : String) (i j : ℕ) : String :=
  String.ofList ((line.toList.drop i).take (j - i))

/-- The tokens that start at index `i` or later and before `j`, and end no later than there. -/
def tokensBetween (i j : ℤ) (ts : List Token) : List Token :=
  ts.filter fun t => i ≤ t.span.start.index ∧ t.span.start.index < j ∧ t.span.stop.index ≤ j

/-- Each token ends before the part, starts behind it or lies in it. -/
def Uncut (i j : ℤ) (ts : List Token) : Prop :=
  ∀ t ∈ ts, t.span.stop.index ≤ i ∨ j ≤ t.span.start.index ∨
    i ≤ t.span.start.index ∧ t.span.stop.index ≤ j

section

variable {i j : ℤ} {t : Token} {ts : List Token}

theorem mem_tokensBetween : t ∈ tokensBetween i j ts ↔
    t ∈ ts ∧ i ≤ t.span.start.index ∧ t.span.start.index < j ∧ t.span.stop.index ≤ j := by
  simp [tokensBetween]

/-- A token over a character of a part that is not cut lies in the part. -/
theorem Uncut.mem_tokensBetween (h : Uncut i j ts) (ht : t ∈ ts) {k : ℕ} (hk : t.Covers k)
    (hi : i ≤ k) (hj : k < j) : t ∈ tokensBetween i j ts := by
  rcases hk with ⟨hstart, hstop⟩
  rw [PrintfLint.mem_tokensBetween]
  rcases h t ht with hbefore | hbehind | ⟨hfrom, hto⟩
  · omega
  · omega
  · exact ⟨ht, hfrom, by omega, hto⟩

/-- The tokens in a part between other tokens, which is not cut then. -/
theorem tokensBetween_append {xs ws ys : List Token}
    (hpos : ∀ t ∈ xs ++ ws ++ ys, t.span.start.index < t.span.stop.index)
    (hxs : ∀ t ∈ xs, t.span.stop.index ≤ i)
    (hws : ∀ t ∈ ws, i ≤ t.span.start.index ∧ t.span.stop.index ≤ j)
    (hys : ∀ t ∈ ys, j ≤ t.span.start.index) :
    tokensBetween i j (xs ++ ws ++ ys) = ws ∧ Uncut i j (xs ++ ws ++ ys) := by
  constructor
  · -- those in front end before the part, those behind start after it, and each has a length
    unfold tokensBetween
    have hbefore : xs.filter (fun t => i ≤ t.span.start.index ∧ t.span.start.index < j ∧
        t.span.stop.index ≤ j) = [] := by
      rw [List.filter_eq_nil_iff]
      intro t ht
      have hlt := hpos t (by simp [ht])
      have hle := hxs t ht
      simp only [decide_eq_true_eq]
      omega
    have hinside : ws.filter (fun t => i ≤ t.span.start.index ∧ t.span.start.index < j ∧
        t.span.stop.index ≤ j) = ws := by
      rw [List.filter_eq_self]
      intro t ht
      have hlt := hpos t (by simp [ht])
      rcases hws t ht with ⟨hfrom, hto⟩
      simp only [decide_eq_true_eq]
      omega
    have hbehind : ys.filter (fun t => i ≤ t.span.start.index ∧ t.span.start.index < j ∧
        t.span.stop.index ≤ j) = [] := by
      rw [List.filter_eq_nil_iff]
      intro t ht
      have hle := hys t ht
      simp only [decide_eq_true_eq]
      omega
    rw [List.filter_append, List.filter_append, hbefore, hinside, hbehind, List.nil_append,
      List.append_nil]
  · intro t ht
    rcases List.mem_append.mp ht with ht | ht
    · rcases List.mem_append.mp ht with ht | ht
      · exact .inl (hxs t ht)
      · exact .inr (.inr (hws t ht))
    · exact .inr (.inl (hys t ht))

end

section

variable {cs : List Char} {number : ℤ} {i j a b : ℕ} {t : Token} {ts : List Token}

theorem Piece.start_lt_stop (h : Piece cs number t a b) :
    t.span.start.index < t.span.stop.index := by
  rw [h.start_index, h.stop_index]
  exact_mod_cast h.lt

/-- A piece of a text is one of a part that it lies in. -/
theorem Piece.slice (h : Piece cs number t a b) (hia : i ≤ a) (hbj : b ≤ j)
    (hj : j ≤ cs.length) :
    Piece ((cs.drop i).take (j - i)) number (t.move (Position.back i)) (a - i) (b - i) := by
  have hlt := h.lt
  -- counted from the start of the part, a rest of it is a rest of the text, cut off at its end
  have hfrom : ∀ k, i ≤ k → ((cs.drop i).take (j - i)).drop (k - i) = (cs.drop k).take (j - k) := by
    intro k hik
    rw [List.drop_take, List.drop_drop, Nat.add_sub_cancel' hik, Nat.sub_sub_sub_cancel_right hik]
  constructor
  · rw [Token.move, Span.move, h.span_eq]
    simp only [Position.back_ofIndex number hia, Position.back_ofIndex number (hia.trans hlt.le)]
  · omega
  · rw [List.length_take, List.length_drop]
    omega
  · rw [hfrom a hia, List.take_take]
    have htext : t.text.toList = (cs.drop a).take (b - a) := h.text_eq
    rw [Token.move, htext]
    congr 1
    omega
  · rw [hfrom b (by omega)]
    apply h.shape.before
    · -- the part may end behind the piece, or go on with what stood there in the text
      intro c hc
      rw [List.head?_take] at hc
      split at hc
      · cases hc
      · exact h.shape.growsBy_head? c hc
    · intro hkind hopen
      rw [h.shape.eq_nil_of_unclosed ⟨hkind, hopen⟩, List.take_nil]
  · exact h.head_not_blank

/-- The tokens that lie in a part of a text tile it, if they do not go beyond it. -/
theorem Tiles.slice (h : Tiles cs number 0 ts) (hj : j ≤ cs.length)
    (huncut : Uncut i j ts) :
    Tiles ((cs.drop i).take (j - i)) number 0
      ((tokensBetween i j ts).map (Token.move (Position.back i))) := by
  constructor
  · intro u hu
    rcases List.mem_map.mp hu with ⟨t, ht, rfl⟩
    rcases mem_tokensBetween.mp ht with ⟨hmem, hstart, -, hstop⟩
    rcases h.piece t hmem with ⟨a, b, -, hpiece⟩
    rw [hpiece.start_index] at hstart
    rw [hpiece.stop_index] at hstop
    exact ⟨a - i, b - i, Nat.zero_le _, hpiece.slice (by omega) (by omega) hj⟩
  · refine List.Pairwise.map _ ?_ (h.ordered.filter _)
    intro t u hle
    exact Int.sub_le_sub_right hle i
  · intro k c _ hc huncovered
    rw [List.getElem?_take, List.getElem?_drop] at hc
    split at hc
    · rename_i hk
      -- a token over the character would lie in the part, and cover it there
      refine h.blank (i + k) c (Nat.zero_le _) hc ?_
      intro t ht hcovers
      have hin : t ∈ tokensBetween i j ts :=
        huncut.mem_tokensBetween ht hcovers (by omega) (by omega)
      rcases hcovers with ⟨hstart, hstop⟩
      push_cast at hstart hstop
      refine huncovered _ (List.mem_map_of_mem hin) ⟨?_, ?_⟩
      · change t.span.start.index - i ≤ k
        omega
      · change (k : ℤ) < t.span.stop.index - i
        omega
    · cases hc

end

/-- As a line of its own, a part of a line has the tokens of the line that lie in it, moved back to
its start, if no token goes beyond it. -/
theorem TokenSeq.ofLine_slice {strict : Strictness} {line : String} {number : ℤ} {s : TokenSeq}
    (hs : ofLine strict line number = .ok s) {i j : ℕ} (hj : j ≤ line.toList.length)
    (huncut : Uncut i j s.body) :
    ofLine strict (slice line i j) number =
      .ok ⟨(tokensBetween i j s.body).map (Token.move (Position.back i)),
        .ended number (j - i), rfl⟩ := by
  have htiles := (tiles_of_ofLine hs).1.slice hj huncut
  have hlength : ((line.toList.drop i).take (j - i)).length = j - i := by
    rw [List.length_take, List.length_drop]
    omega
  rw [ofLine, PrintfLint.slice, String.toList_ofList, scan_eq_ok_iff_allowed]
  constructor
  · refine (scan_eq_ok_iff (Nat.zero_le _)).mpr ⟨htiles, ?_⟩
    rw [hlength]
  · intro u hu
    -- the tokens of the part are tokens of the line, which its strictness has let pass
    rcases List.mem_map.mp hu with ⟨t, ht, rfl⟩
    have hallowed := (scan_eq_ok_iff_allowed.mp hs).2 t (mem_tokensBetween.mp ht).1
    exact ⟨hallowed.number, hallowed.literal⟩

end PrintfLint
