import Mathlib.Data.List.Chain
import PrintfLint.Proofs.Verdict.Layout
import PrintfLint.Proofs.Verdict.Strictness

/-!
# PrintfLint.Proofs.Verdict.Minified — statements without white space

* `Kind.isMark` — the kinds of tokens that stand between words: parentheses, commas, semicolons and
  operators;
* `Phrase.isChain_apart`, `IsStatement.isChain_apart` — of two tokens next to each other in a
  statement, one is a mark;
* `Token.Apart.adjoins` — such tokens do not run together;
* `Verdict.ofLine_minified` — white space does not matter in a statement, and may be left out.

The tokens of other lines may need white space between them, as two names do. The grammar never puts
a word next to a word, at whatever depth, so in a statement each token ends where it must.
-/

namespace PrintfLint

/-! ## Marks between words -/

/-- The kinds of tokens that stand between words. -/
def Kind.isMark : Kind → Bool
  | lparen | rparen | semicolon | comma | operator => true
  | _ => false

/-- One of the tokens is a mark. -/
def Token.Apart (t u : Token) : Prop :=
  t.kind.isMark = true ∨ u.kind.isMark = true

theorem isChain_append_mark {us vs : List Token} {t : Token} (ht : t.kind.isMark = true)
    (hus : us.IsChain Token.Apart) (hvs : vs.IsChain Token.Apart) :
    (us ++ t :: vs).IsChain Token.Apart := by
  rw [List.isChain_append]
  refine ⟨hus, hvs.cons fun _ _ => .inl ht, ?_⟩
  intro u _ v hv
  cases hv
  exact .inr ht

theorem isChain_cons_mark {t u : Token} {vs : List Token} (hu : u.kind.isMark = true)
    (hvs : vs.IsChain Token.Apart) : (t :: u :: vs).IsChain Token.Apart :=
  isChain_append_mark hu (.singleton t) hvs

/-- Marks separate the words of a phrase. -/
theorem Phrase.isChain_apart {c : Category} {us : List Token} {es : List Expr}
    (h : Phrase c us es) : us.IsChain Token.Apart := by
  -- two words never stand side by side in a phrase, because every rule puts a mark between its
  -- parts
  induction h with
  | single _ ih => exact ih
  | join _ ht _ ih ihright => exact isChain_append_mark (by simp [ht.1, Kind.isMark]) ih ihright
  | term _ ih => exact ih
  | factor _ ih => exact ih
  | number => exact .singleton _
  | name => exact .singleton _
  | call_empty _ ho => exact isChain_cons_mark (by simp [ho, Kind.isMark]) (.singleton _)
  | call _ ho _ hc ih =>
    exact isChain_cons_mark (by simp [ho, Kind.isMark])
      (isChain_append_mark (by simp [hc, Kind.isMark]) ih .nil)
  | group ho _ hc ih =>
    exact isChain_append_mark (by simp [ho, Kind.isMark]) .nil
      (isChain_append_mark (by simp [hc, Kind.isMark]) ih .nil)
  | last _ ih => exact ih
  | comma _ ht _ ih ihothers => exact isChain_append_mark (by simp [ht, Kind.isMark]) ih ihothers

/-- Marks separate the words of a statement. -/
theorem IsStatement.isChain_apart {ts : List Token} {literal : Token} {es : List Expr}
    (h : IsStatement ts literal es) : ts.IsChain Token.Apart := by
  -- the parentheses, the comma and the semicolon stand between all words of the statement
  cases h with
  | bare _ ho _ hc hs =>
    exact isChain_cons_mark (by simp [ho, Kind.isMark])
      (isChain_cons_mark (by simp [hc, Kind.isMark])
        (isChain_append_mark (by simp [hs, Kind.isMark]) .nil (.singleton _)))
  | @supplied p o _ m c s e us _ _ ho _ hm inner hc hs =>
    have hend : [s, e].IsChain Token.Apart :=
      isChain_append_mark (by simp [hs, Kind.isMark]) .nil (.singleton e)
    have hclose : (us ++ c :: [s, e]).IsChain Token.Apart :=
      isChain_append_mark (by simp [hc, Kind.isMark]) inner.isChain_apart hend
    exact isChain_cons_mark (by simp [ho, Kind.isMark])
      (isChain_cons_mark (by simp [hm, Kind.isMark]) hclose)

/-! ## Marks in a text -/

theorem Kind.growsBy_of_isMark {k : Kind} (hk : k.isMark = true) (c : Char) :
    k.growsBy c = false := by
  cases k <;> first | rfl | cases hk

/-- No token is made longer by the character that a mark starts with. -/
theorem Shape.growsBy_of_isMark {k : Kind} {text rest : List Char} (h : Shape k text rest)
    (hk : k.isMark = true) (l : Kind) : ∀ c ∈ text.head?, l.growsBy c = false := by
  -- the marks are eight characters, and none of them goes on with any kind of token
  have hnone : ∀ c ∈ ['(', ')', ';', ',', '+', '-', '*', '/'], l.growsBy c = false := by
    cases l <;> exact List.all_iff_forall_prop.mp (by decide)
  intro c hc
  apply hnone
  cases h with
  | operator hmem =>
    cases hc
    exact List.mem_append_right ['(', ')', ';', ','] hmem
  | lparen => cases hc; decide
  | rparen => cases hc; decide
  | semicolon => cases hc; decide
  | comma => cases hc; decide
  | _ => cases hk

/-- The one token may stand directly in front of the other, if one of them is a mark. -/
theorem Token.Apart.adjoins {t u : Token} (h : t.Apart u) {rest : List Char}
    (hu : Shape u.kind u.text.toList rest) : t.Adjoins u := by
  intro c hc
  rcases h with ht | hmark
  · exact Kind.growsBy_of_isMark ht c
  · exact hu.growsBy_of_isMark hmark t.kind c hc

/-! ## Lines -/

/-- Tokens that adjoin each other are kept apart by any white space. -/
theorem isChain_of_adjoins {ts : List Token} {ws : List String} (hlength : ws.length = ts.length)
    (h : ts.IsChain Token.Adjoins) :
    (ts.zip ws).IsChain fun x y => x.2 ≠ "" ∨ x.1.Adjoins y.1 := by
  rw [← List.map_fst_zip (le_of_eq hlength.symm), List.isChain_map] at h
  exact h.imp fun _ _ hadjoins => .inr hadjoins

/-- The tokens of a statement adjoin each other. -/
theorem TokenSeq.isChain_adjoins {strict : Strictness} {line : String} {number : Int}
    {s : TokenSeq} (hs : ofLine strict line number = .ok s) {literal : Token} {es : List Expr}
    (h : IsStatement s.toList literal es) : s.body.IsChain Token.Adjoins := by
  have hapart : s.body.IsChain Token.Apart := h.isChain_apart.left_of_append
  refine hapart.imp_of_mem_imp ?_
  intro t u _ hu htu
  rcases (tiles_of_ofLine hs).1.piece u hu with ⟨_, _, _, hpiece⟩
  exact htu.adjoins hpiece.shape

/-- White space does not matter in a statement. The tokens of a line that is valid, or in which only
directives and arguments do not go together, may be written with any white space around them, or
with none. This line has tokens of the same kinds and texts, and an outcome that differs in its
spans only. -/
theorem Verdict.ofLine_minified (options : Options) {line : String} {number : Int}
    (h : (ofLine options line number).outcome.kind? ∈
      [none, some .countMismatch, some .typeMismatch]) :
    ∃ s, TokenSeq.ofLine options.toStrictness line number = .ok s ∧
      ∀ (before : String) (after : List String), after.length = s.body.length →
        (∀ w ∈ before :: after, ∀ c ∈ w.toList, Text.isBlank c = true) → ∀ number',
          ∃ s', TokenSeq.ofLine options.toStrictness (before ++ spread s.body after) number' =
              .ok s' ∧
            s'.toList.map Token.face = s.toList.map Token.face ∧
            (ofLine options (before ++ spread s.body after) number').outcome.Agrees
              (ofLine options line number).outcome := by
  -- the verdict is none on the grammar or on a lexeme, so the line is a statement
  have hsays : ∃ literal es, Says options line number literal es := by
    apply exists_says <;>
      · intro hkind
        simp [hkind] at h
  rcases hsays with ⟨literal, es, s, hs, hstatement⟩
  refine ⟨s, hs, ?_⟩
  intro before after hlength hblank number'
  -- a literal in a statement is closed
  have hclosed : ∀ t ∈ s.body.getLast?, t.Unclosed → after.getLast? = some "" := by
    intro t ht hopen
    have hmem : t ∈ s.toList := List.mem_append_left _ (List.mem_of_getLast? ht)
    exact absurd hopen (TokenSeq.not_unclosed_of_isStatement hs hstatement t hmem)
  have hapart := isChain_of_adjoins hlength (TokenSeq.isChain_adjoins hs hstatement)
  rcases TokenSeq.exists_ofLine_spread hs hlength hblank hapart hclosed number' with
    ⟨s', hs', hbody⟩
  exact ⟨s', hs', agrees_of_faces hs hs' hbody⟩

/-- The tokens of `printf ("%s", 1 * x);`, whose argument is no string. -/
def spacedOut : TokenSeq where
  body := [⟨.printf, "printf", ⟨.ofIndex 1 0, .ofIndex 1 6⟩⟩,
    ⟨.lparen, "(", ⟨.ofIndex 1 7, .ofIndex 1 8⟩⟩,
    ⟨.literal, "\"%s\"", ⟨.ofIndex 1 8, .ofIndex 1 12⟩⟩,
    ⟨.comma, ",", ⟨.ofIndex 1 12, .ofIndex 1 13⟩⟩,
    ⟨.number, "1", ⟨.ofIndex 1 14, .ofIndex 1 15⟩⟩,
    ⟨.operator, "*", ⟨.ofIndex 1 16, .ofIndex 1 17⟩⟩,
    ⟨.identifier, "x", ⟨.ofIndex 1 18, .ofIndex 1 19⟩⟩,
    ⟨.rparen, ")", ⟨.ofIndex 1 19, .ofIndex 1 20⟩⟩,
    ⟨.semicolon, ";", ⟨.ofIndex 1 20, .ofIndex 1 21⟩⟩]
  last := .ended 1 21
  last_kind := rfl

/-- The line keeps its tokens and the report on its argument without its white space. -/
theorem Verdict.ofLine_spacedOut :
    (ofLine {} "printf (\"%s\", 1 * x);" 1).outcome.kind? = some .typeMismatch ∧
      TokenSeq.ofLine {} "printf (\"%s\", 1 * x);" 1 = .ok spacedOut ∧
      ∃ s', TokenSeq.ofLine {} "printf(\"%s\",1*x);" 2 = .ok s' ∧
        s'.toList.map Token.face = spacedOut.toList.map Token.face ∧
        (ofLine {} "printf(\"%s\",1*x);" 2).outcome.Agrees
          (ofLine {} "printf (\"%s\", 1 * x);" 1).outcome := by
  have hkind : (ofLine {} "printf (\"%s\", 1 * x);" 1).outcome.kind? = some .typeMismatch := by
    decide +kernel
  have hs : TokenSeq.ofLine {} "printf (\"%s\", 1 * x);" 1 = .ok spacedOut := by decide +kernel
  -- the line without its white space, written from the tokens
  have hline : "" ++ spread spacedOut.body (List.replicate 9 "") = "printf(\"%s\",1*x);" := by
    decide
  have hmem : (ofLine {} "printf (\"%s\", 1 * x);" 1).outcome.kind? ∈
      [none, some .countMismatch, some .typeMismatch] := by
    simp [hkind]
  refine ⟨hkind, hs, ?_⟩
  obtain ⟨s, hs', hminified⟩ := ofLine_minified {} hmem
  obtain rfl : spacedOut = s := Except.ok.inj (hs.symm.trans hs')
  have hblank : ∀ w ∈ "" :: List.replicate 9 "", ∀ c ∈ w.toList, Text.isBlank c = true := by
    simp
  rw [← hline]
  exact hminified "" (List.replicate 9 "") rfl hblank 2

end PrintfLint
