import PrintfLint.Proofs.Token.Layout

/-!
# PrintfLint.Proofs.Token.Dump — printed token streams can be told apart

* `LongestRun.append_inj` — where a longest run ends is seen from the text alone;
* `Kind.name_append_inj`, `Shape.append_inj` — so are the end of a kind's name and that of a text;
* `Token.dump`, `toList_renderAll` — the characters of a printed token stream, token by token;
* `Shaped.dump_inj` — they tell what the tokens are;
* `TokenSeq.renderAll_eq_iff` — two lines have the same printed tokens only if they have the same
  tokens, wherever these stand.

A literal may contain all that is printed between tokens, but no quotation mark other than the two
at its ends. One that is not closed has none but the first, and then nothing comes after it that has
one.
-/

namespace PrintfLint

/-! ## Ends that can be seen -/

/-- A text is a longest run and a rest in one way only. -/
theorem LongestRun.append_inj {p : Char → Bool} {us vs rest rest' : List Char}
    (hus : LongestRun p us rest) (hvs : LongestRun p vs rest') (h : us ++ rest = vs ++ rest') :
    us = vs ∧ rest = rest' := by
  constructor
  · rw [← hus.takeWhile_eq, h, hvs.takeWhile_eq]
  · rw [← hus.dropWhile_eq, h, hvs.dropWhile_eq]

/-- What stands before the first mark and what stands behind it. -/
theorem append_mark_inj {mark : Char} {us vs rest rest' : List Char} (hus : mark ∉ us)
    (hvs : mark ∉ vs) (h : us ++ mark :: rest = vs ++ mark :: rest') : us = vs ∧ rest = rest' := by
  obtain ⟨hsame, hrest⟩ :=
    (longestRun_of_notMem hus rest).append_inj (longestRun_of_notMem hvs rest') h
  exact ⟨hsame, (List.cons.inj hrest).2⟩

namespace Kind

theorem paren_notMem_name (k : Kind) : '(' ∉ k.name.toList := by
  cases k <;> decide

theorem name_inj {k k' : Kind} (h : k.name = k'.name) : k = k' := by
  have hof := ofName?_name k
  rw [h, ofName?_name] at hof
  exact (Option.some.inj hof).symm

/-- The name of a kind ends at the parenthesis. -/
theorem name_append_inj {k k' : Kind} {us vs : List Char}
    (h : k.name.toList ++ '(' :: us = k'.name.toList ++ '(' :: vs) : k = k' ∧ us = vs := by
  obtain ⟨hname, hrest⟩ := append_mark_inj k.paren_notMem_name k'.paren_notMem_name h
  exact ⟨name_inj (String.toList_injective hname), hrest⟩

end Kind

/-! ## Texts -/

namespace Shape

variable {k : Kind} {us vs rest rest' : List Char}

/-- No name, number or directive contains a closing parenthesis. -/
theorem rparen_notMem (h : Shape k us rest)
    (hk : k ∈ [Kind.identifier, Kind.number, Kind.directive]) : ')' ∉ us := by
  have hletter : Text.isLetter ')' = false := by decide
  have hdecimal : Text.isDecimal ')' = false := by decide
  -- the rest of such a text is a run of characters of a class that leaves out the parenthesis
  have hrun : ∀ {p : Char → Bool} {cs cs' : List Char}, LongestRun p cs cs' → p ')' = false →
      ')' ∉ cs := by
    intro p cs cs' hcs hp hmem
    rw [hcs.1 _ hmem] at hp
    cases hp
  cases h with
  | name hc run =>
    rw [List.mem_cons, not_or]
    constructor
    · rintro rfl
      rw [hletter] at hc
      cases hc
    · exact hrun run (by simp [Lexeme.isNamePart, hletter, hdecimal])
  | number hc run =>
    rw [List.mem_cons, not_or]
    constructor
    · rintro rfl
      rw [hdecimal] at hc
      cases hc
    · exact hrun run (by simp [Lexeme.isNumberPart, hdecimal])
  | directive run =>
    rw [List.mem_cons, not_or]
    exact ⟨by decide, hrun run (by simp [Lexeme.isDirectivePart, hletter, hdecimal])⟩
  | _ => simp at hk

/-- Two texts of a kind that end in a parenthesis end at the same one. A literal must be closed for
that. -/
theorem append_inj {xs ys : List Char} (hus : Shape k us rest) (hvs : Shape k vs rest')
    (hclosed : k = .literal → '"' ∈ us.tail) (hclosed' : k = .literal → '"' ∈ vs.tail)
    (h : us ++ ')' :: xs = vs ++ ')' :: ys) : us = vs ∧ xs = ys := by
  by_cases hrun : k ∈ [Kind.identifier, Kind.number, Kind.directive]
  · exact append_mark_inj (hus.rparen_notMem hrun) (hvs.rparen_notMem hrun) h
  · -- a literal has its own end, and of any other kind there is one text only
    cases hus with
    | name => simp at hrun
    | number => simp at hrun
    | directive => simp at hrun
    | literal hquote =>
      cases hvs with
      | literal hquote' =>
        simp only [List.cons_append, List.append_assoc, List.nil_append, List.cons.injEq,
          true_and] at h
        obtain ⟨rfl, hrest⟩ := append_mark_inj hquote hquote' h
        exact ⟨rfl, (List.cons.inj hrest).2⟩
      | openLiteral hopen => exact absurd (hclosed' rfl) hopen
    | openLiteral hopen => exact absurd (hclosed rfl) hopen
    | _ =>
      cases hvs
      simpa using h

end Shape

/-! ## Token streams -/

namespace Token

/-- The characters of a printed token stream that ends in an end of input. -/
def dump : List Token → List Char
  | [] => Kind.endOfInput.name.toList
  | t :: ts => t.kind.name.toList ++ '(' :: (t.text.toList ++ ')' :: ' ' :: dump ts)

theorem toList_renderAll {ts : List Token} {fin : Token} (hts : ∀ t ∈ ts, t.text ≠ "")
    (hkind : fin.kind = .endOfInput) (htext : fin.text = "") :
    (renderAll (ts ++ [fin])).toList = dump ts := by
  -- by the tokens; there is always one behind the first, be it the end of input
  induction ts with
  | nil => simp [renderAll, render, dump, hkind, htext]
  | cons t ts ih =>
    rcases List.forall_mem_cons.mp hts with ⟨ht, hts⟩
    have hne : ts ++ [fin] ≠ [] := by simp
    obtain ⟨u, us, hus⟩ := List.exists_cons_of_ne_nil hne
    have hmore := ih hts
    rw [hus] at hmore
    unfold renderAll at hmore ⊢
    rw [List.cons_append, hus, List.map_cons, List.map_cons, String.intercalate_cons_cons,
      ← List.map_cons, String.toList_append, String.toList_append, hmore]
    simp [render, dump, ht]

/-- A stream of tokens ends where no parenthesis is left. -/
theorem dump_cons_ne_nil (t : Token) (ts : List Token) : dump (t :: ts) ≠ dump [] := by
  intro h
  have hmem : '(' ∈ dump (t :: ts) := by simp [dump]
  rw [h] at hmem
  exact Kind.endOfInput.paren_notMem_name hmem

/-- Behind a literal that is not closed there is no quotation mark, so what is printed in the same
way is not closed either. -/
theorem unclosed_of_dump {t u : Token} {ts us : List Token} (hts : Shaped (t :: ts))
    (ht : t.text.toList ≠ []) (hu : u.text.toList ≠ []) (hkind : t.kind = u.kind)
    (h : t.text.toList ++ ')' :: ' ' :: dump ts = u.text.toList ++ ')' :: ' ' :: dump us)
    (hopen : t.Unclosed) : u.Unclosed := by
  -- the literal takes the rest of the line, so it is the last token
  obtain rfl := hts.eq_nil_of_unclosed [] t ts rfl hopen
  rcases hopen with ⟨hliteral, hquote⟩
  have htail := congrArg List.tail h
  rw [List.tail_append_of_ne_nil ht, List.tail_append_of_ne_nil hu] at htail
  refine ⟨hkind ▸ hliteral, ?_⟩
  intro hmem
  -- a quotation mark in the other text would be behind the literal, where only the end is printed
  have hfound : '"' ∈ t.text.toList.tail ++ ')' :: ' ' :: dump [] := by
    rw [htail]
    exact List.mem_append_left _ hmem
  rcases List.mem_append.mp hfound with htext | hbehind
  · exact hquote htext
  · revert hbehind
    decide

end Token

/-- A printed token stream tells the kinds and texts of its tokens. -/
theorem Shaped.dump_inj {ts us : List Token} (hts : Shaped ts) (hus : Shaped us)
    (h : Token.dump ts = Token.dump us) : ts.map Token.face = us.map Token.face := by
  induction ts generalizing us with
  | nil =>
    cases us with
    | nil => rfl
    | cons u us => exact absurd h.symm (Token.dump_cons_ne_nil u us)
  | cons t ts ih =>
    cases us with
    | nil => exact absurd h (Token.dump_cons_ne_nil t ts)
    | cons u us =>
      obtain ⟨hkind, htext⟩ := Kind.name_append_inj h
      obtain ⟨rest, ht⟩ := hts.shape t List.mem_cons_self
      obtain ⟨rest', hu⟩ := hus.shape u List.mem_cons_self
      by_cases hopen : t.Unclosed
      · -- both are the last token, and all that is printed behind them is the same
        have huopen := Token.unclosed_of_dump hts ht.ne_nil hu.ne_nil hkind htext hopen
        obtain rfl := hts.eq_nil_of_unclosed [] t ts rfl hopen
        obtain rfl := hus.eq_nil_of_unclosed [] u us rfl huopen
        have hsame := String.toList_injective (List.append_cancel_right htext)
        simp [Token.face, hkind, hsame]
      · have hclosed : ¬ u.Unclosed := fun huopen =>
          hopen (Token.unclosed_of_dump hus hu.ne_nil ht.ne_nil hkind.symm htext.symm huopen)
        rw [← hkind] at hu
        obtain ⟨hsame, hmore⟩ := ht.append_inj hu
          (fun hliteral => by_contra fun hquote => hopen ⟨hliteral, hquote⟩)
          (fun hliteral => by_contra fun hquote => hclosed ⟨hkind ▸ hliteral, hquote⟩) htext
        have hfaces := ih hts.tail hus.tail (List.cons.inj hmore).2
        simp [Token.face, hkind, String.toList_injective hsame, ← hfaces]

namespace TokenSeq

variable {strict strict' : Strictness} {line line' : String} {number number' : ℤ}
  {s s' : TokenSeq}

/-- The printed tokens of a line, character by character. -/
theorem toList_renderAll_ofLine (hs : ofLine strict line number = .ok s) :
    (Token.renderAll s.toList).toList = Token.dump s.body := by
  obtain ⟨htiles, hlast⟩ := tiles_of_ofLine hs
  apply Token.toList_renderAll
  · intro t ht
    obtain ⟨rest, hshape⟩ := htiles.shaped.shape t ht
    intro hempty
    exact hshape.ne_nil (by rw [hempty]; rfl)
  · exact s.last_kind
  · rw [hlast]
    rfl

/-- Two lines that can be divided into tokens, each under its own strictness, have the same printed
tokens exactly if their tokens have the same kinds and texts. -/
theorem renderAll_eq_iff (hs : ofLine strict line number = .ok s)
    (hs' : ofLine strict' line' number' = .ok s') :
    Token.renderAll s.toList = Token.renderAll s'.toList ↔
      s.toList.map Token.face = s'.toList.map Token.face := by
  obtain ⟨htiles, hlast⟩ := tiles_of_ofLine hs
  obtain ⟨htiles', hlast'⟩ := tiles_of_ofLine hs'
  -- the end of input is printed without a text, and is the same in all lines
  have hend : s.last.face = s'.last.face := by
    rw [hlast, hlast']
    rfl
  constructor
  · intro h
    have hdump := congrArg String.toList h
    rw [toList_renderAll_ofLine hs, toList_renderAll_ofLine hs'] at hdump
    have hbody := htiles.shaped.dump_inj htiles'.shaped hdump
    simp [toList, hbody, hend]
  · intro h
    have hrender : Token.render =
        (fun f => Token.render ⟨f.1, f.2, ⟨.ofIndex 0 0, .ofIndex 0 0⟩⟩) ∘ Token.face := rfl
    unfold Token.renderAll
    rw [hrender, ← List.map_map, ← List.map_map, h]

/-- A literal may hold what is printed behind one and in front of the next. It is still told apart
from two literals. -/
theorem renderAll_ne_twoLiterals :
    ∃ s s', ofLine {} "\"a) StringLiteral(b" 1 = .ok s ∧
      ofLine ⟨true, false⟩ " \"a\" \"b" 2 = .ok s' ∧
      Token.renderAll s.toList = "StringLiteral(\"a) StringLiteral(b) EndOfInput" ∧
      Token.renderAll s.toList ≠ Token.renderAll s'.toList := by
  have hs : ofLine {} "\"a) StringLiteral(b" 1 =
      .ok ⟨[⟨.literal, "\"a) StringLiteral(b", ⟨.ofIndex 1 0, .ofIndex 1 19⟩⟩],
        .ended 1 19, rfl⟩ := by
    decide +kernel
  have hs' : ofLine ⟨true, false⟩ " \"a\" \"b" 2 =
      .ok ⟨[⟨.literal, "\"a\"", ⟨.ofIndex 2 1, .ofIndex 2 4⟩⟩,
        ⟨.literal, "\"b", ⟨.ofIndex 2 5, .ofIndex 2 7⟩⟩], .ended 2 7, rfl⟩ := by
    decide +kernel
  refine ⟨_, _, hs, hs', by decide +kernel, ?_⟩
  rw [Ne, renderAll_eq_iff hs hs']
  decide

end TokenSeq

end PrintfLint
