import PrintfLint.Proofs.Statement.Extent
import PrintfLint.Proofs.Statement.Session
import PrintfLint.Proofs.Token.Slice

/-!
# PrintfLint.Proofs.Verdict.Argument — arguments and their source text

* `TakesUp`, `Tiles.exists_takesUp` — the part of a line that a run of its tokens takes up;
* `Session.perform_expression` — an expression that is all of a sequence is read to its end;
* `Argument.Selects` — an argument is what its part of the line says as a line of its own;
* `Argument.Precedes` — between two arguments there is a comma, and else white space;
* `Verdict.ofLine_arguments` — this holds of all arguments of a line, valid or not.

The span of an argument is put together from those of its parts. It starts where the first token
starts and ends where the last one ends, so it cuts no token of the line, and the tokens in it are
those that the argument has been read from.
-/

namespace PrintfLint

/-! ## Parts of a line -/

/-- The tokens `ws` take up the part of a text from index `i` up to `j`, and those before and behind
them lie outside of it. -/
structure TakesUp (cs : List Char) (number : ℤ) (xs ws ys : List Token) (s : Span) (i j : ℕ) :
    Prop where
  span_eq : s = ⟨.ofIndex number i, .ofIndex number j⟩
  lt : i < j
  le_length : j ≤ cs.length
  before : ∀ t ∈ xs, t.span.stop.index ≤ i
  inside : ∀ t ∈ ws, i ≤ t.span.start.index ∧ t.span.stop.index ≤ j
  behind : ∀ t ∈ ys, j ≤ t.span.start.index

section

variable {cs : List Char} {number : ℤ} {xs ws ys ts : List Token} {s : Span}

theorem Tiles.start_lt_stop {i : ℕ} (h : Tiles cs number i ts) :
    ∀ t ∈ ts, t.span.start.index < t.span.stop.index := by
  intro t ht
  rcases h.piece t ht with ⟨_, _, _, hpiece⟩
  exact hpiece.start_lt_stop

/-- A run of tokens takes up the part of the text that its span says. -/
theorem Tiles.exists_takesUp (h : Tiles cs number 0 (xs ++ ws ++ ys)) (hspan : Spans ws s) :
    ∃ i j, TakesUp cs number xs ws ys s i j := by
  rcases Option.map_eq_some_iff.mp hspan.start_eq with ⟨t, ht, hstart⟩
  rcases Option.map_eq_some_iff.mp hspan.stop_eq with ⟨u, hu, hstop⟩
  have htmem := List.mem_of_mem_head? ht
  have humem := List.mem_of_getLast? hu
  rcases h.piece t (by simp [htmem]) with ⟨i, _, -, hfirst⟩
  rcases h.piece u (by simp [humem]) with ⟨_, j, -, hlast⟩
  have hwithin : ∀ v ∈ ws, v.span.start.index < v.span.stop.index :=
    fun v hv => h.start_lt_stop v (by simp [hv])
  obtain ⟨hleft, hys, hbehind⟩ := List.pairwise_append.mp h.ordered
  obtain ⟨-, hws, hbefore⟩ := List.pairwise_append.mp hleft
  -- the first token comes before all others of the run, and the last one behind them
  have hfrom : ∀ v ∈ ws, t = v ∨ t.span.stop.index ≤ v.span.start.index := by
    obtain ⟨vs, rfl⟩ := List.head?_eq_some_iff.mp ht
    intro v hv
    rcases List.mem_cons.mp hv with rfl | hv
    · exact .inl rfl
    · exact .inr ((List.pairwise_cons.mp hws).1 v hv)
  have hto : ∀ v ∈ ws, v = u ∨ v.span.stop.index ≤ u.span.start.index := by
    obtain ⟨vs, rfl⟩ := List.getLast?_eq_some_iff.mp hu
    intro v hv
    rcases List.mem_append.mp hv with hv | hv
    · exact .inr ((List.pairwise_append.mp hws).2.2 v hv u (by simp))
    · exact .inl (List.mem_singleton.mp hv)
  have hi := hfirst.start_index
  have hj := hlast.stop_index
  have hinside : ∀ v ∈ ws, (i : ℤ) ≤ v.span.start.index ∧ v.span.stop.index ≤ j := by
    intro v hv
    have hfirstpos := hwithin t htmem
    have hlastpos := hwithin u humem
    constructor
    · rcases hfrom v hv with rfl | hle <;> omega
    · rcases hto v hv with rfl | hle <;> omega
  refine ⟨i, j, ?_, ?_, hlast.le_length, ?_, hinside, ?_⟩
  · rw [hfirst.span_eq] at hstart
    rw [hlast.span_eq] at hstop
    simp only at hstart hstop
    rw [hstart, hstop]
  · have hlt := hwithin t htmem
    have hle := (hinside t htmem).2
    omega
  · intro v hv
    have hle := hbefore v hv t htmem
    omega
  · intro v hv
    have hle := hbehind u (by simp [humem]) v hv
    omega

/-- The tokens of a part of the text that a run takes up are those of the run. -/
theorem TakesUp.tokensBetween {i j : ℕ} (h : TakesUp cs number xs ws ys s i j)
    (htiles : Tiles cs number 0 (xs ++ ws ++ ys)) :
    PrintfLint.tokensBetween i j (xs ++ ws ++ ys) = ws ∧ Uncut i j (xs ++ ws ++ ys) :=
  tokensBetween_append htiles.start_lt_stop h.before h.inside h.behind

/-- The end of input lies in no part of the text. -/
theorem tokensBetween_ended (number : ℤ) {i j : ℤ} {length : ℕ} (hj : j ≤ length)
    (ts : List Token) :
    tokensBetween i j (ts ++ [.ended number length]) = tokensBetween i j ts := by
  have hnot : ¬ (length : ℤ) < j := by omega
  simp [tokensBetween, Token.ended, Position.ofIndex, hnot]

end

/-! ## Sessions -/

/-- A session that reads all of its tokens as an expression comes to the end. -/
theorem Session.perform_expression {s : TokenSeq} {e : Expr}
    (h : Reads s.last (.chain .sum) s.body (.ok [e]) []) (propagate : Bool) :
    ∃ s', (start propagate s).perform .expression =
        (.ok (.argument (e.argument propagate)), s') ∧ s'.index = s.body.length := by
  refine ⟨(start propagate s).moveTo [], perform_expression_of_reads h, ?_⟩
  simp [moveTo, start, rest]

/-! ## Arguments -/

/-- Every phrase ends at the end of the tokens. -/
theorem ends_nil (c : Category) (us : List Token) : c.Ends us [] where
  goesOn_eq_false := by simp
  uncalled := by
    intro i _ o ho
    cases ho

namespace Argument

/-- The argument covers the line from index `i` up to `j`. As a line of its own, this part has the
tokens of the line that lie in it, moved back to its start, and all of them are read as one
expression, with the type of the argument and the whole part as its span. -/
structure Selects (options : Options) (line : String) (number : ℤ) (ts : List Token)
    (a : Argument) (i j : ℕ) : Prop where
  span_eq : a.span = ⟨.ofIndex number i, .ofIndex number j⟩
  lt : i < j
  le_length : j ≤ line.toList.length
  reads : ∃ s, TokenSeq.ofLine options.toStrictness (slice line i j) number = .ok s ∧
    s.toList = (tokensBetween i j ts).map (Token.move (Position.back i)) ++
      [.ended number (j - i)] ∧
    ∃ s', (Session.start options.propagate s).perform .expression =
        (.ok (.argument ⟨a.type, ⟨.ofIndex number 0, .ofIndex number (j - i)⟩⟩), s') ∧
      s'.index = s.body.length

/-- The one argument ends before the other starts. Between them there is one token, which is a
comma, and else white space. -/
structure Precedes (line : String) (ts : List Token) (a b : Argument) : Prop where
  le : a.span.stop.index ≤ b.span.start.index
  comma : ∃ m, tokensBetween a.span.stop.index b.span.start.index ts = [m] ∧ m.kind = .comma
  blank : ∀ (k : ℕ) (c : Char), a.span.stop.index ≤ k → k < b.span.start.index →
    line.toList[k]? = some c →
      (∀ t ∈ tokensBetween a.span.stop.index b.span.start.index ts, ¬ t.Covers k) →
        Text.isBlank c = true

section

variable {options : Options} {line : String} {number : ℤ} {s : TokenSeq} {ws vs : List Token}
  {m : Token} {e f : Expr}

/-- An expression among the tokens of a line is read from its part of the line. -/
theorem selects_of_phrase (hs : TokenSeq.ofLine options.toStrictness line number = .ok s)
    (hws : ws <:+: s.body) (he : Phrase (.chain .sum) ws [e]) :
    ∃ i j, (e.argument options.propagate).Selects options line number s.toList i j := by
  obtain ⟨xs, ys, hbody⟩ := hws
  obtain ⟨htiles, hlast⟩ := TokenSeq.tiles_of_ofLine hs
  rw [← hbody] at htiles
  obtain ⟨i, j, hplace⟩ := htiles.exists_takesUp (he.spans rfl)
  obtain ⟨hbetween, huncut⟩ := hplace.tokensBetween htiles
  rw [hbody] at hbetween huncut
  have hij := hplace.lt
  have hslice := TokenSeq.ofLine_slice hs hplace.le_length huncut
  rw [hbetween] at hslice
  -- the tokens are read alike at their place in the line and at the start of a line
  have hread : Reads (.ended number j) (.chain .sum) (ws ++ []) (.ok [e]) [] :=
    he.reads (ends_nil _ ws)
  rw [List.append_nil] at hread
  have hmoved := hread.move (p := Position.back i)
  have hend : (Token.ended number j).move (Position.back i) = .ended number (j - i) := by
    rw [Token.move, Span.move, Token.ended]
    simp only [Position.back_ofIndex number hij.le]
    rfl
  rw [hend] at hmoved
  obtain ⟨s', hperform, hindex⟩ := Session.perform_expression
    (s := ⟨ws.map (Token.move (Position.back i)), .ended number (j - i), rfl⟩) hmoved
    options.propagate
  have hall : tokensBetween i j s.toList = ws := by
    rw [TokenSeq.toList, hlast, tokensBetween_ended number (by exact_mod_cast hplace.le_length),
      hbetween]
  refine ⟨i, j, hplace.span_eq, hij, hplace.le_length, _, hslice, ?_, s', ?_, hindex⟩
  · rw [hall]
    rfl
  · rw [hperform, Expr.argument_move, Argument.move, Expr.argument, hplace.span_eq, Span.move]
    simp only [Position.back_ofIndex number hij.le, Position.back_ofIndex number le_rfl,
      Nat.sub_self]

/-- Expressions with a comma between them come one after the other. -/
theorem precedes_of_phrase (hs : TokenSeq.ofLine options.toStrictness line number = .ok s)
    (hpart : ws ++ m :: vs <:+: s.body) (he : Phrase (.chain .sum) ws [e])
    (hm : m.kind = .comma) (hf : Phrase (.chain .sum) vs [f]) :
    (e.argument options.propagate).Precedes line s.toList (f.argument options.propagate) := by
  obtain ⟨xs, ys, hbody⟩ := hpart
  obtain ⟨htiles, hlast⟩ := TokenSeq.tiles_of_ofLine hs
  -- the tokens of the line as seen from each expression, and from the comma between them
  have hleft : xs ++ ws ++ (m :: vs ++ ys) = s.body := by simpa using hbody
  have hright : (xs ++ ws ++ [m]) ++ vs ++ ys = s.body := by simpa using hbody
  have hmiddle : (xs ++ ws) ++ [m] ++ (vs ++ ys) = s.body := by simpa using hbody
  obtain ⟨i, j, hplace⟩ := Tiles.exists_takesUp (hleft ▸ htiles) (he.spans rfl)
  obtain ⟨k, l, hplace'⟩ := Tiles.exists_takesUp (hright ▸ htiles) (hf.spans rfl)
  have hstop : (e.argument options.propagate).span.stop.index = j := by
    rw [Expr.argument, hplace.span_eq]
    rfl
  have hstart : (f.argument options.propagate).span.start.index = k := by
    rw [Expr.argument, hplace'.span_eq]
    rfl
  have hpos := htiles.start_lt_stop
  -- the comma is behind the first expression and before the second one
  have hfrom : (j : ℤ) ≤ m.span.start.index := hplace.behind m (by simp)
  have hto : m.span.stop.index ≤ k := hplace'.before m (by simp)
  have hcomma := hpos m (by simp [← hmiddle])
  have hkl := hplace'.lt
  have hle := hplace'.le_length
  -- so between the two there is the comma, and no token goes beyond this part
  obtain ⟨hbetween, huncut⟩ : tokensBetween j k s.body = [m] ∧ Uncut j k s.body := by
    rw [← hmiddle] at hpos ⊢
    apply tokensBetween_append hpos
    · intro t ht
      rcases List.mem_append.mp ht with ht | ht
      · have hbefore := hplace.before t ht
        have hij := hplace.lt
        omega
      · exact (hplace.inside t ht).2
    · intro t ht
      cases List.mem_singleton.mp ht
      exact ⟨hfrom, hto⟩
    · intro t ht
      rcases List.mem_append.mp ht with ht | ht
      · exact (hplace'.inside t ht).1
      · have hbehind := hplace'.behind t ht
        omega
  have hall : tokensBetween j k s.toList = [m] := by
    rw [TokenSeq.toList, hlast, tokensBetween_ended number (by omega), hbetween]
  rw [← hstop, ← hstart] at hall huncut
  refine ⟨by omega, ⟨m, hall, hm⟩, ?_⟩
  intro n c hn hnk hc huncovered
  -- a token that covers a place between them lies between them, and is the comma
  refine htiles.blank n c (Nat.zero_le n) hc ?_
  intro t ht hcovers
  have hin := huncut.mem_tokensBetween ht hcovers hn hnk
  rw [hstop, hstart, hbetween, ← hall] at hin
  exact huncovered t hin hcovers

/-- Each argument of a line selects the part that it has been read from. -/
theorem exists_selects (hs : TokenSeq.ofLine options.toStrictness line number = .ok s)
    {a : Argument} (ha : a ∈ (s.outcome options.propagate).arguments) :
    ∃ i j, a.Selects options line number s.toList i j := by
  have hsigned : ∀ t ∈ s.body, t.Signed := fun t ht => (regular_of_ofLine hs ht).signed
  rcases TokenSeq.exists_phrase hsigned options.propagate with hnil | ⟨us, es, hus, hphrase, hes⟩
  · simp [hnil] at ha
  · rw [hes] at ha
    rcases List.mem_map.mp ha with ⟨e, he, rfl⟩
    rcases hphrase.exists_infix e he with ⟨ws, hws, hexpr⟩
    exact selects_of_phrase hs (hws.trans hus) hexpr

/-- The arguments of a line come one after the other. -/
theorem isChain_precedes (hs : TokenSeq.ofLine options.toStrictness line number = .ok s) :
    (s.outcome options.propagate).arguments.IsChain (Precedes line s.toList) := by
  have hsigned : ∀ t ∈ s.body, t.Signed := fun t ht => (regular_of_ofLine hs ht).signed
  rcases TokenSeq.exists_phrase hsigned options.propagate with hnil | ⟨us, es, hus, hphrase, hes⟩
  · rw [hnil]
    exact .nil
  · rw [hes, List.isChain_map]
    refine hphrase.isChain_comma.imp ?_
    rintro e f ⟨ws, m, vs, hpart, hleft, hm, hright⟩
    exact precedes_of_phrase hs (hpart.trans hus) hleft hm hright

end

end Argument

/-! ## Verdicts -/

/-- The span of an argument selects its source text, in every line that has arguments, valid or not.
The part of the line in it has the same tokens as a line of its own, and is read to its end as an
expression of the same type. The arguments come one after the other, with a comma and white space
between them. -/
theorem Verdict.ofLine_arguments (options : Options) (line : String) (number : ℤ) :
    (∀ a ∈ (ofLine options line number).outcome.arguments, ∃ i j,
      a.Selects options line number (ofLine options line number).tokens i j) ∧
    (ofLine options line number).outcome.arguments.IsChain
      (Argument.Precedes line (ofLine options line number).tokens) := by
  unfold ofLine
  cases hs : TokenSeq.ofLine options.toStrictness line number with
  | error e => exact ⟨by simp [Outcome.ofProblem], .nil⟩
  | ok s => exact ⟨fun a ha => Argument.exists_selects hs ha, Argument.isChain_precedes hs⟩

/-- A line that breaks off behind its second argument still has both of them, and the second is read
from `f(2, 3) * 2` alone. -/
theorem Verdict.ofLine_arguments_brokenOff :
    (ofLine {} "printf(\"%d\", (1), f(2, 3) * 2" 1).outcome.kind? = some .grammar ∧
      Argument.Precedes "printf(\"%d\", (1), f(2, 3) * 2"
        (ofLine {} "printf(\"%d\", (1), f(2, 3) * 2" 1).tokens
        ⟨.integer, ⟨.ofIndex 1 13, .ofIndex 1 16⟩⟩ ⟨.integer, ⟨.ofIndex 1 18, .ofIndex 1 29⟩⟩ ∧
      ∃ s, TokenSeq.ofLine {} "f(2, 3) * 2" 1 = .ok s ∧
        ∃ s', (Session.start false s).perform .expression =
            (.ok (.argument ⟨.integer, ⟨.ofIndex 1 0, .ofIndex 1 11⟩⟩), s') ∧
          s'.index = s.body.length := by
  have harguments : (ofLine {} "printf(\"%d\", (1), f(2, 3) * 2" 1).outcome.arguments =
      [⟨.integer, ⟨.ofIndex 1 13, .ofIndex 1 16⟩⟩, ⟨.integer, ⟨.ofIndex 1 18, .ofIndex 1 29⟩⟩] := by
    decide +kernel
  -- the second argument starts at index 18 and ends at 29; what stands there is the slice
  have hslice : slice "printf(\"%d\", (1), f(2, 3) * 2" 18 29 = "f(2, 3) * 2" := by
    decide +kernel
  obtain ⟨hselects, hchain⟩ := ofLine_arguments {} "printf(\"%d\", (1), f(2, 3) * 2" 1
  rw [harguments] at hselects hchain
  refine ⟨by decide +kernel, (List.isChain_cons_cons.mp hchain).1, ?_⟩
  obtain ⟨i, j, hspan, -, -, s, hs, -, s', hperform, hindex⟩ :=
    hselects ⟨.integer, ⟨.ofIndex 1 18, .ofIndex 1 29⟩⟩ (by simp)
  obtain ⟨rfl, rfl⟩ : i = 18 ∧ j = 29 := by
    simp only [Position.ofIndex, Span.mk.injEq, Position.mk.injEq] at hspan
    omega
  rw [hslice] at hs
  exact ⟨s, hs, s', hperform, hindex⟩

end PrintfLint
