import PrintfLint.Proofs.Token.Tiling

/-!
# PrintfLint.Proofs.Token.Strictness — what strict scans refuse

* `Token.Malformed`, `Token.Unclosed` — the tokens that a strict scan objects to;
* `Token.Allowed` — the tokens that a scan of given strictness lets pass;
* `scan_eq_ok_iff_allowed` — a strict scan finds the tokens of a permissive one, if it lets all of
  them pass;
* `Tiles.eq_nil_of_unclosed` — a literal that is not closed is the last token of its line;
* `Shaped`, `Tiles.shaped` — what is known of the tokens of a line without the line.

Scans of different strictness run in step up to the first token that one of them refuses. Whether it
does depends on the token alone, so the tokens of a scan tell what any other scan would say of them.
-/

namespace PrintfLint

namespace Token

/-- A number with two points or more. -/
def Malformed (t : Token) : Prop :=
  t.kind = .number ∧ 2 ≤ t.text.toList.count '.'

/-- A literal that has no quotation mark but the one that opens it. -/
def Unclosed (t : Token) : Prop :=
  t.kind = .literal ∧ '"' ∉ t.text.toList.tail

/-- The token passes a scan of the given strictness. -/
structure Allowed (strict : Strictness) (t : Token) : Prop where
  number : strict.numbers = true → ¬ t.Malformed
  literal : strict.literals = true → ¬ t.Unclosed

theorem allowed_permissive (t : Token) : t.Allowed {} where
  number := nofun
  literal := nofun

end Token

namespace Lexeme

variable {strict : Strictness}

theorem malformed_token_iff (l : Lexeme) (start : Position) :
    (l.token start).Malformed ↔ l.kind = .number ∧ 1 < l.text.count '.' := by
  rw [Token.Malformed, token, String.toList_ofList, Nat.lt_iff_add_one_le]

theorem unclosed_token_iff (l : Lexeme) (start : Position) :
    (l.token start).Unclosed ↔ l.kind = .literal ∧ l.isOpen = true := by
  simp [Token.Unclosed, token, isOpen]

/-- Nothing is said against the lexemes whose tokens are allowed. -/
theorem refusal?_eq_none_iff {l : Lexeme} {start : Position} :
    l.refusal? strict start = none ↔ (l.token start).Allowed strict := by
  have hallowed : (l.token start).Allowed strict ↔
      (strict.numbers = true → ¬ (l.kind = .number ∧ 1 < l.text.count '.')) ∧
        (strict.literals = true → ¬ (l.kind = .literal ∧ l.isOpen = true)) := by
    rw [← malformed_token_iff l start, ← unclosed_token_iff l start]
    exact ⟨fun h => ⟨h.number, h.literal⟩, fun h => ⟨h.1, h.2⟩⟩
  rw [hallowed]
  unfold refusal?
  -- numbers and literals have a condition each, and nothing else is refused
  split
  · rename_i hkind
    simp [hkind]
  · rename_i hkind
    simp [hkind]
  · rename_i hnumber hliteral
    exact iff_of_true rfl ⟨fun _ h => hnumber h.1, fun _ h => hliteral h.1⟩

/-- A lexeme is accepted if its token is allowed. -/
theorem accept_eq_ok_iff {l : Lexeme} {start : Position} {t : Token} :
    l.accept strict start = .ok t ↔ (l.token start).Allowed strict ∧ l.token start = t := by
  rw [accept, ← refusal?_eq_none_iff]
  cases l.refusal? strict start <;> simp

end Lexeme

namespace TokenSeq

variable {strict : Strictness} {start : Position} {c : Char} {cs : List Char} {s : TokenSeq}

/-- A scan goes on after a lexeme whose token is allowed. -/
theorem scan_lexeme_eq_ok_iff (hc : Text.isBlank c = false) {l : Lexeme}
    (h : Lexeme.next? c cs = some l) :
    scan strict start (c :: cs) = .ok s ↔ (l.token start).Allowed strict ∧
      ∃ s', scan strict (start.advance l.text.length) l.rest = .ok s' ∧
        s'.cons (l.token start) = s := by
  rw [scan_lexeme hc h]
  -- if the lexeme is refused, its token is not allowed, and otherwise the scan goes on
  cases haccept : l.accept strict start with
  | error e =>
    have hnot : ¬ (l.token start).Allowed strict := by
      intro hallowed
      rw [Lexeme.accept_eq_ok_iff.mpr ⟨hallowed, rfl⟩] at haccept
      cases haccept
    simp [hnot]
  | ok t =>
    rcases Lexeme.accept_eq_ok_iff.mp haccept with ⟨hallowed, rfl⟩
    cases scan strict (start.advance l.text.length) l.rest <;>
      simp [hallowed, Except.map]

/-- A strict scan finds the same tokens as a permissive one, if it lets all of them pass. -/
theorem scan_eq_ok_iff_allowed :
    scan strict start cs = .ok s ↔
      scan {} start cs = .ok s ∧ ∀ t ∈ s.body, t.Allowed strict := by
  -- by the length of the text, since a lexeme may take any number of characters of it
  induction hleft : cs.length using Nat.strong_induction_on generalizing start cs s with
  | _ left ih =>
    cases cs with
    | nil =>
      rw [scan_nil, scan_nil]
      constructor
      · intro h
        cases h
        exact ⟨rfl, by simp [ended]⟩
      · exact fun h => h.1
    | cons c cs =>
      rw [List.length_cons] at hleft
      by_cases hblank : Text.isBlank c
      · rw [scan_blank hblank, scan_blank hblank]
        exact ih cs.length (by omega) rfl
      · rw [Bool.not_eq_true] at hblank
        -- both scans find the same lexeme or none, and strictness asks only whether it passes
        cases hnext : Lexeme.next? c cs with
        | none => simp [scan_unexpected hblank hnext]
        | some l =>
          have hshort := Lexeme.next?_rest_length_le hnext
          have hrest := fun s => @ih l.rest.length (by omega) (start.advance l.text.length)
            l.rest s rfl
          rw [scan_lexeme_eq_ok_iff hblank hnext, scan_lexeme_eq_ok_iff hblank hnext]
          constructor
          · rintro ⟨hallowed, s', hs', rfl⟩
            rcases (hrest s').mp hs' with ⟨hpermissive, hall⟩
            exact ⟨⟨Token.allowed_permissive _, s', hpermissive, rfl⟩,
              List.forall_mem_cons.mpr ⟨hallowed, hall⟩⟩
          · rintro ⟨⟨_, s', hs', rfl⟩, hall⟩
            rcases List.forall_mem_cons.mp hall with ⟨hallowed, hall⟩
            exact ⟨hallowed, s', (hrest s').mpr ⟨hs', hall⟩, rfl⟩

/-- What a strict scan accepts, any other scan accepts too. -/
theorem scan_permissive (h : scan strict start cs = .ok s) : scan {} start cs = .ok s :=
  (scan_eq_ok_iff_allowed.mp h).1

/-- The tokens of a line under given strictness are those that tile it, if all of them are
allowed. -/
theorem tiles_of_ofLine {line : String} {number : Int} (h : ofLine strict line number = .ok s) :
    Tiles line.toList number 0 s.body ∧ s.last = .ended number line.toList.length := by
  have hscan : scan {} (.ofIndex number 0) (line.toList.drop 0) = .ok s := scan_permissive h
  exact (scan_eq_ok_iff (Nat.zero_le _)).mp hscan

end TokenSeq

/-! ## Literals that are not closed -/

/-- Nothing comes after a literal that is not closed. -/
theorem Shape.eq_nil_of_unclosed {t : Token} {rest : List Char}
    (h : Shape t.kind t.text.toList rest) (ht : t.Unclosed) : rest = [] := by
  rcases ht with ⟨hkind, hopen⟩
  rw [hkind] at h
  generalize t.text.toList = text at h hopen
  cases h with
  | literal => simp at hopen
  | openLiteral => rfl

/-- A literal that is not closed is the last token of its line. -/
theorem Tiles.eq_nil_of_unclosed {cs : List Char} {number : Int} {i : Nat} {t : Token}
    {us vs : List Token} (h : Tiles cs number i (us ++ t :: vs)) (hopen : t.Unclosed) :
    vs = [] := by
  rcases h.piece t (by simp) with ⟨a, b, _, hpiece⟩
  have hend : cs.length ≤ b := List.drop_eq_nil_iff.mp (hpiece.shape.eq_nil_of_unclosed hopen)
  -- a token after it would start where the text is over
  cases vs with
  | nil => rfl
  | cons u vs =>
    rcases h.piece u (by simp) with ⟨a', b', _, hpiece'⟩
    have hordered := (List.pairwise_append.mp h.ordered).2.1
    have hle := (List.pairwise_cons.mp hordered).1 u List.mem_cons_self
    rw [hpiece.stop_index, hpiece'.start_index] at hle
    have hlt := hpiece'.lt
    have hwithin := hpiece'.le_length
    omega

theorem Tiles.getLast?_of_unclosed {cs : List Char} {number : Int} {i : Nat} {t : Token}
    {ts : List Token} (h : Tiles cs number i ts) (ht : t ∈ ts) (hopen : t.Unclosed) :
    ts.getLast? = some t := by
  obtain ⟨us, vs, rfl⟩ := List.append_of_mem ht
  rw [h.eq_nil_of_unclosed hopen, List.getLast?_concat]

/-- Each token has the shape of its kind before some text, and nothing comes after a literal that is
not closed. -/
structure Shaped (ts : List Token) : Prop where
  shape : ∀ t ∈ ts, ∃ rest, Shape t.kind t.text.toList rest
  eq_nil_of_unclosed : ∀ us t vs, ts = us ++ t :: vs → t.Unclosed → vs = []

theorem Shaped.tail {t : Token} {ts : List Token} (h : Shaped (t :: ts)) : Shaped ts where
  shape := fun u hu => h.shape u (List.mem_cons_of_mem t hu)
  eq_nil_of_unclosed := by
    intro us u vs heq
    exact h.eq_nil_of_unclosed (t :: us) u vs (by rw [heq, List.cons_append])

/-- The tokens of a text have their shapes. -/
theorem Tiles.shaped {cs : List Char} {number : Int} {i : Nat} {ts : List Token}
    (h : Tiles cs number i ts) : Shaped ts where
  shape := by
    intro t ht
    rcases h.piece t ht with ⟨_, _, _, hpiece⟩
    exact ⟨_, hpiece.shape⟩
  eq_nil_of_unclosed := by
    rintro us t vs rfl hopen
    exact h.eq_nil_of_unclosed hopen

end PrintfLint
