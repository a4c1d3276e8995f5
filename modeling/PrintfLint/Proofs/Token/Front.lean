import PrintfLint.Proofs.Token.Strictness

/-!
# PrintfLint.Proofs.Token.Front — how far a scan comes

* `Scanned` — the front of a text has been read, and tokens have been found there;
* `Fault` — the scan gets no further;
* `TokenSeq.exists_scanned` — a scan reads its text up to the end or up to a fault;
* `Scanned.before`, `Scanned.before_same` — what has been read in front of some text is read in
  front of other texts too.

The text that is left is part of `Scanned`, since the last token that was found might go on into it.
Only its first character matters for that.
-/

namespace PrintfLint

namespace Position

@[simp] theorem advance_zero (p : Position) : p.advance 0 = p := by
  simp [advance]

@[simp] theorem advance_advance (p : Position) (m n : ℕ) :
    (p.advance m).advance n = p.advance (m + n) := by
  simp only [advance, mk.injEq, true_and]
  omega

theorem advance_ofIndex_zero (number : Int) (n : ℕ) :
    (ofIndex number 0).advance n = .ofIndex number n := by
  rw [advance_ofIndex, Nat.zero_add]

end Position

/-- A scan that starts at a position has read the characters in front of `rest` and found the
tokens. -/
inductive Scanned (strict : Strictness) (rest : List Char) :
    Position → List Char → List Token → Prop where
  | nil {start : Position} : Scanned strict rest start [] []
  | blank {start : Position} {c : Char} {cs : List Char} {ts : List Token}
      (hc : Text.isBlank c = true) (more : Scanned strict rest (start.advance 1) cs ts) :
      Scanned strict rest start (c :: cs) ts
  | token {start : Position} {t : Token} {cs : List Char} {ts : List Token}
      (hspan : t.span = ⟨start, start.advance t.text.toList.length⟩)
      (shape : Shape t.kind t.text.toList (cs ++ rest)) (allowed : t.Allowed strict)
      (more : Scanned strict rest (start.advance t.text.toList.length) cs ts) :
      Scanned strict rest start (t.text.toList ++ cs) (t :: ts)

/-- What ends a scan at a position in front of a text. -/
inductive Fault (strict : Strictness) (start : Position) : List Char → LexicalError → Prop where
  | unexpected {c : Char} {cs : List Char} (hc : Text.isBlank c = false)
      (hnone : Lexeme.next? c cs = none) : Fault strict start (c :: cs) (.unexpected c start)
  | malformed {text rest : List Char} (shape : Shape .number text rest)
      (hstrict : strict.numbers = true) (hpoints : 2 ≤ text.count '.') :
      Fault strict start (text ++ rest) (.malformedNumber text start)
  | unterminated {us : List Char} (hus : '"' ∉ us) (hstrict : strict.literals = true) :
      Fault strict start ('"' :: us) (.unterminated start (start.advance (us.length + 1)))

/-- The sequence with tokens in front of it. -/
def TokenSeq.prepend (ts : List Token) (s : TokenSeq) : TokenSeq :=
  { s with body := ts ++ s.body }

@[simp] theorem TokenSeq.body_prepend_ended (ts : List Token) (p : Position) :
    ((ended p).prepend ts).body = ts :=
  List.append_nil ts

variable {strict : Strictness} {start : Position} {cs us rest rest' : List Char}
  {ts : List Token} {e : LexicalError}

/-! ## Faults -/

theorem Fault.ne_nil (h : Fault strict start cs e) : cs ≠ [] := by
  cases h with
  | unexpected => simp
  | malformed shape => simp [shape.ne_nil]
  | unterminated => simp

/-- A lexeme is refused for a fault of the text. -/
theorem Lexeme.fault_of_refusal? {l : Lexeme} (shape : Shape l.kind l.text l.rest)
    (h : l.refusal? strict start = some e) : Fault strict start (l.text ++ l.rest) e := by
  rcases l with ⟨k, text, rest⟩
  unfold refusal? at h
  -- a number with two points, or an open literal; nothing else is refused
  split at h
  · rename_i hkind
    obtain rfl : k = .number := hkind
    split at h
    · rename_i hrefused
      obtain ⟨hstrict, hpoints⟩ : strict.numbers = true ∧ 1 < text.count '.' := by
        simpa using hrefused
      cases h
      exact .malformed shape hstrict hpoints
    · cases h
  · rename_i hkind
    obtain rfl : k = .literal := hkind
    split at h
    · rename_i hrefused
      obtain ⟨hstrict, hopen⟩ : strict.literals = true ∧ '"' ∉ text.tail := by
        simpa [isOpen] using hrefused
      cases h
      cases shape with
      | literal => simp at hopen
      | openLiteral hus =>
        rw [List.append_nil]
        exact .unterminated hus hstrict
    · cases h
  · cases h

/-- A scan fails where there is a fault. -/
theorem Fault.scan_eq (h : Fault strict start cs e) :
    TokenSeq.scan strict start cs = .error e := by
  -- each fault is what the scan looks at first: no lexeme, too many points, or an open literal
  cases h with
  | unexpected hc hnone => exact TokenSeq.scan_unexpected hc hnone
  | @malformed text rest shape hstrict hpoints =>
    have hmany : 1 < text.count '.' := hpoints
    rw [TokenSeq.scan_shape shape, Lexeme.accept]
    simp [Lexeme.refusal?, hstrict, hmany]
  | @unterminated us hus hstrict =>
    have hscan : TokenSeq.scan strict start ('"' :: us ++ []) = _ :=
      TokenSeq.scan_shape (.openLiteral hus)
    rw [List.append_nil] at hscan
    rw [hscan, Lexeme.accept]
    simp [Lexeme.refusal?, Lexeme.isOpen, hstrict, hus]

/-! ## Scans of what has been read -/

namespace Scanned

theorem cons_token {t : Token} (hspan : t.span = ⟨start, start.advance t.text.toList.length⟩) :
    Lexeme.token start ⟨t.kind, t.text.toList, rest⟩ = t := by
  rw [Lexeme.token, String.ofList_toList, ← hspan]

/-- A text that is a token has been read with it. -/
theorem single {k : Kind} {text : List Char} (shape : Shape k text rest)
    (allowed : (Lexeme.token start ⟨k, text, rest⟩).Allowed strict) :
    Scanned strict rest start text [Lexeme.token start ⟨k, text, rest⟩] := by
  have htext : (Lexeme.token start ⟨k, text, rest⟩).text.toList = text := String.toList_ofList
  have hread : Scanned strict rest start _ [Lexeme.token start ⟨k, text, rest⟩] :=
    .token (by rw [htext]; rfl) (by rw [htext]; exact shape) allowed .nil
  rwa [htext, List.append_nil] at hread

/-- What has been read may be read in two parts. -/
theorem append {vs : List Char} {ts' : List Token}
    (h : Scanned strict (vs ++ rest) start us ts)
    (h' : Scanned strict rest (start.advance us.length) vs ts') :
    Scanned strict rest start (us ++ vs) (ts ++ ts') := by
  induction h with
  | nil => simpa using h'
  | @blank start c cs ts hc _ ih =>
    refine .blank hc (ih ?_)
    rwa [Position.advance_advance, Nat.add_comm, ← List.length_cons]
  -- the second part is read where the first one ends, and a token of the first one ends before that
  | @token start t cs ts hspan shape allowed _ ih =>
    rw [List.append_assoc]
    refine .token hspan (by rwa [List.append_assoc]) allowed (ih ?_)
    rwa [Position.advance_advance, ← List.length_append]

/-- A scan goes on behind what has been read, with the tokens that were found there in front. -/
theorem scan_append (h : Scanned strict rest start us ts) :
    TokenSeq.scan strict start (us ++ rest) =
      (TokenSeq.scan strict (start.advance us.length) rest).map (TokenSeq.prepend ts) := by
  -- by what has been read: white space moves the start, and a token is found and accepted again
  induction h with
  | @nil start =>
    rw [List.nil_append, List.length_nil, Position.advance_zero]
    cases TokenSeq.scan strict start rest <;> rfl
  | @blank start c cs ts hc _ ih =>
    rw [List.cons_append, TokenSeq.scan_blank hc, ih, Position.advance_advance, List.length_cons,
      Nat.add_comm 1]
  | @token start t cs ts hspan shape allowed _ ih =>
    have htoken : Lexeme.token start ⟨t.kind, t.text.toList, cs ++ rest⟩ = t := cons_token hspan
    have haccept : Lexeme.accept strict start ⟨t.kind, t.text.toList, cs ++ rest⟩ = .ok t :=
      Lexeme.accept_eq_ok_iff.mpr ⟨htoken.symm ▸ allowed, htoken⟩
    rw [List.append_assoc, TokenSeq.scan_shape shape, haccept]
    simp only [ih, Position.advance_advance, List.length_append]
    cases TokenSeq.scan strict (start.advance (t.text.toList.length + cs.length)) rest <;> rfl

/-- What a scan reads to the end. -/
theorem scan_eq_ok (h : Scanned strict [] start us ts) :
    TokenSeq.scan strict start us =
      .ok ((TokenSeq.ended (start.advance us.length)).prepend ts) := by
  have hscan := h.scan_append
  rw [List.append_nil, TokenSeq.scan_nil] at hscan
  exact hscan

/-- What a scan reads up to a fault. -/
theorem scan_eq_error (h : Scanned strict rest start us ts)
    (hfault : Fault strict (start.advance us.length) rest e) :
    TokenSeq.scan strict start (us ++ rest) = .error e := by
  rw [h.scan_append, hfault.scan_eq]
  rfl

/-- What a strict scan reads, any other scan reads too. -/
theorem permissive (h : Scanned strict rest start us ts) : Scanned {} rest start us ts := by
  induction h with
  | nil => exact .nil
  | blank hc _ ih => exact .blank hc ih
  | token hspan shape _ _ ih => exact .token hspan shape (Token.allowed_permissive _) ih

/-- Nothing comes after a literal that is not closed. -/
theorem eq_nil_of_unclosed (h : Scanned strict rest start us ts) {t : Token} (ht : t ∈ ts)
    (hopen : t.Unclosed) : rest = [] := by
  induction h with
  | nil => cases ht
  | blank _ _ ih => exact ih ht
  | token _ shape _ _ ih =>
    rcases List.mem_cons.mp ht with rfl | ht
    · exact (List.append_eq_nil_iff.mp (shape.eq_nil_of_unclosed hopen)).2
    · exact ih ht

/-- What has been read in front of some text is read in front of any other that starts in the same
way, or with white space, or is over. Only after a literal that is not closed it must be over. -/
theorem before (h : Scanned strict rest start us ts)
    (hhead : ∀ c ∈ rest'.head?, c ∈ rest.head? ∨ Text.isBlank c = true)
    (hopen : ∀ t ∈ ts, t.Unclosed → rest' = []) : Scanned strict rest' start us ts := by
  -- the text behind matters to the last token only, and to that only through its next character
  induction h with
  | nil => exact .nil
  | blank hc _ ih => exact .blank hc (ih hopen)
  | @token start t cs ts hspan shape allowed more ih =>
    rcases List.forall_mem_cons.mp hopen with ⟨ht, hopen⟩
    refine .token hspan (shape.before ?_ ?_) allowed (ih hopen)
    · intro c hc
      rw [List.head?_append, Option.mem_def, Option.or_eq_some_iff] at hc
      -- the next character is one of the tokens behind it, or, if there are none, of the text
      -- behind
      rcases hc with hc | ⟨hnone, hc⟩
      · exact shape.growsBy_head? c (by rw [List.head?_append, hc]; rfl)
      · rcases hhead c hc with hsame | hblank
        · exact shape.growsBy_head? c (by rw [List.head?_append, hnone]; exact hsame)
        · exact t.kind.growsBy_of_isBlank hblank
    · intro hkind hquote
      have hempty := shape.eq_nil_of_unclosed ⟨hkind, hquote⟩
      rw [(List.append_eq_nil_iff.mp hempty).1, ht ⟨hkind, hquote⟩]
      rfl

/-- What has been read in front of some text is read in front of any other that starts with the
same character, or is over. -/
theorem before_same (h : Scanned strict rest start us ts) (hrest : rest ≠ [])
    (hhead : ∀ c ∈ rest'.head?, c ∈ rest.head?) : Scanned strict rest' start us ts :=
  h.before (fun c hc => .inl (hhead c hc))
    fun _ ht hopen => absurd (h.eq_nil_of_unclosed ht hopen) hrest

end Scanned

namespace TokenSeq

/-- A scan reads its text up to the end or up to a fault. -/
theorem exists_scanned (strict : Strictness) (start : Position) (cs : List Char) :
    ∃ us ts rest, cs = us ++ rest ∧ Scanned strict rest start us ts ∧
      (rest = [] ∨ ∃ e, Fault strict (start.advance us.length) rest e) := by
  -- on what is left of the text; a token takes several characters at once
  induction hleft : cs.length using Nat.strong_induction_on generalizing start cs with
  | _ left ih =>
    cases cs with
    | nil => exact ⟨[], [], [], rfl, .nil, .inl rfl⟩
    | cons c cs =>
      rw [List.length_cons] at hleft
      have hhere : ∀ e, Fault strict start (c :: cs) e → ∃ us ts rest, c :: cs = us ++ rest ∧
          Scanned strict rest start us ts ∧
            (rest = [] ∨ ∃ e, Fault strict (start.advance us.length) rest e) := by
        intro e hfault
        refine ⟨[], [], c :: cs, rfl, .nil, .inr ⟨e, ?_⟩⟩
        rwa [List.length_nil, Position.advance_zero]
      by_cases hblank : Text.isBlank c
      · obtain ⟨us, ts, rest, rfl, hmore, hend⟩ := ih cs.length (by omega) (start.advance 1) cs rfl
        refine ⟨c :: us, ts, rest, rfl, .blank hblank hmore, ?_⟩
        rwa [Position.advance_advance, Nat.add_comm 1] at hend
      · rw [Bool.not_eq_true] at hblank
        cases hnext : Lexeme.next? c cs with
        | none => exact hhere _ (.unexpected hblank hnext)
        | some l =>
          rcases next?_eq_some_iff.mp hnext with ⟨htext, hshape⟩
          have hshort := Lexeme.next?_rest_length_le hnext
          cases hrefusal : l.refusal? strict start with
          | some e =>
            have hfault := Lexeme.fault_of_refusal? hshape hrefusal
            rw [htext] at hfault
            exact hhere e hfault
          | none =>
            have hallowed := Lexeme.refusal?_eq_none_iff.mp hrefusal
            obtain ⟨us, ts, rest, hrest, hmore, hend⟩ :=
              ih l.rest.length (by omega) (start.advance l.text.length) l.rest rfl
            have htoken : (l.token start).text.toList = l.text := String.toList_ofList
            refine ⟨l.text ++ us, l.token start :: ts, rest, ?_, ?_, ?_⟩
            · rw [List.append_assoc, ← hrest, htext]
            · rw [← htoken]
              refine .token ?_ ?_ hallowed ?_
              · rw [htoken]; rfl
              · rw [htoken, ← hrest]; exact hshape
              · rw [htoken]; exact hmore
            · rwa [Position.advance_advance, ← List.length_append] at hend

/-- A scan that succeeds has read the whole text. -/
theorem scanned_of_scan {s : TokenSeq} (h : scan strict start cs = .ok s) :
    Scanned strict [] start cs s.body ∧ s = (ended (start.advance cs.length)).prepend s.body := by
  obtain ⟨us, ts, rest, rfl, hread, rfl | ⟨e, hfault⟩⟩ := exists_scanned strict start cs
  · rw [List.append_nil] at h ⊢
    rw [hread.scan_eq_ok] at h
    cases h
    rw [body_prepend_ended]
    exact ⟨hread, rfl⟩
  · rw [hread.scan_eq_error hfault] at h
    cases h

/-- A scan that fails has read the text up to a fault. -/
theorem exists_fault_of_scan (h : scan strict start cs = .error e) :
    ∃ us ts rest, cs = us ++ rest ∧ Scanned strict rest start us ts ∧
      Fault strict (start.advance us.length) rest e := by
  obtain ⟨us, ts, rest, rfl, hread, rfl | ⟨e', hfault⟩⟩ := exists_scanned strict start cs
  · rw [List.append_nil, hread.scan_eq_ok] at h
    cases h
  · rw [hread.scan_eq_error hfault] at h
    cases h
    exact ⟨us, ts, rest, rfl, hread, hfault⟩

end TokenSeq

end PrintfLint
