import PrintfLint.Proofs.Verdict.Directive
import PrintfLint.Token.Cursor

/-!
# PrintfLint.Proofs.Scanners — a directive as a lexeme and as a part of a literal

* `isDirectivePart_eq`, `Specifier.isPart_eq` — the characters that continue a directive, sorted
  into those that do so in both readings and those that do so in one;
* `takeWhile_eq_append` — a longest run goes on from a longest run of fewer characters;
* `Specifier.Found.mem_iff` — what a search finds at a percent sign;
* `Specifier.Parting` — how two readings of a directive differ;
* `Cursor.directive_parting` — so do the lexeme at a percent sign and the directive found at it.

Both readings go over the letters, digits and points of ASCII. The first other character decides:
no character continues both readings from there, so one of the two ends at it.
-/

namespace PrintfLint

/-! ## Characters -/

namespace Text

/-- A letter or a decimal digit that is not in ASCII. -/
def isForeign (c : Char) : Bool :=
  decide (128 ≤ c.toNat) && (isLetter c || isDecimal c)

/-- What holds of the characters below a bound one by one holds of each of them. -/
theorem forall_lt_of_ofNat {p : Char → Prop} {bound : ℕ} (h : ∀ n < bound, p (Char.ofNat n))
    {c : Char} (hc : c.toNat < bound) : p c := by
  have hof := h c.toNat hc
  rw [Char.ofNat_toNat] at hof
  exact hof

theorem isLetter_of_lt {c : Char} (h : c.toNat < 128) : isLetter c = c.isAlpha :=
  forall_lt_of_ofNat (p := fun c => isLetter c = c.isAlpha) (by decide +kernel) h

theorem isDecimal_of_lt {c : Char} (h : c.toNat < 128) : isDecimal c = c.isDigit :=
  forall_lt_of_ofNat (p := fun c => isDecimal c = c.isDigit) (by decide +kernel) h

/-- A letter or a decimal digit is one of ASCII or a foreign one. -/
theorem isLetter_or_isDecimal (c : Char) :
    (isLetter c || isDecimal c) = (c.isAlphanum || isForeign c) := by
  unfold isForeign
  -- below 128 both sides ask the tables of ASCII, and above it they hold no character
  by_cases hascii : c.toNat < 128
  · rw [isLetter_of_lt hascii, isDecimal_of_lt hascii, decide_eq_false (by omega), Bool.false_and,
      Bool.or_false]
    rfl
  · have hnot : c.isAlphanum = false := by
      rw [Bool.eq_false_iff]
      intro h
      have hhi := (toNat_of_isAlphanum h).2
      omega
    rw [hnot, decide_eq_true (by omega), Bool.true_and, Bool.false_or]

end Text

namespace Specifier

/-- The characters that continue a directive both in a literal and outside of one. -/
def isShared (c : Char) : Bool :=
  c.isAlphanum || c = '.'

theorem isPart_eq (c : Char) : isPart c = (isShared c || c = '_') := by
  rw [isPart, isShared, Bool.or_right_comm]

end Specifier

theorem Lexeme.isDirectivePart_eq (c : Char) :
    isDirectivePart c = (Specifier.isShared c || Text.isForeign c) := by
  rw [isDirectivePart, Text.isLetter_or_isDecimal, Specifier.isShared, Bool.or_right_comm]

/-! ## Runs -/

/-- A longest run goes on from the longest run of some of its characters. -/
theorem takeWhile_eq_append {p q : Char → Bool} (hpq : ∀ c, p c = true → q c = true)
    (cs : List Char) : cs.takeWhile q = cs.takeWhile p ++ (cs.dropWhile p).takeWhile q := by
  have hrun := (longestRun_takeWhile p cs).1
  conv_lhs => rw [← List.takeWhile_append_dropWhile (p := p) (l := cs)]
  rw [List.takeWhile_append_of_pos fun c hc => hpq c (hrun c hc)]

theorem takeWhile_ne_nil_iff {p : Char → Bool} {cs : List Char} :
    cs.takeWhile p ≠ [] ↔ ∃ c ∈ cs.head?, p c = true := by
  cases cs with
  | nil => simp
  | cons c cs => cases h : p c <;> simp [h]

namespace Specifier

/-! ## The directive at a percent sign -/

/-- A search finds one directive at a percent sign, and this is the sign with the longest run behind
it. -/
theorem Found.mem_iff {cs behind : List Char} {ss : List Specifier} (h : Found 0 cs ss) {i : ℕ}
    (hi : cs.drop i = '%' :: behind) {s : Specifier} :
    s ∈ ss ∧ s.offset = i ↔ s = ofRun i (behind.takeWhile isPart) := by
  have honly : ∀ s ∈ ss, s.offset = i → s = ofRun i (behind.takeWhile isPart) := by
    intro s hs hoffset
    rcases h.exists_run s hs with ⟨k, run, rest, rfl, hdrop, hrun⟩
    rw [Nat.zero_add] at hoffset ⊢
    obtain rfl : k = i := Int.ofNat.inj hoffset
    rw [hi] at hdrop
    rw [(List.cons.inj hdrop).2, hrun.takeWhile_eq]
  constructor
  · rintro ⟨hs, hoffset⟩
    exact honly s hs hoffset
  · rintro rfl
    refine ⟨?_, rfl⟩
    -- the sign has its place among the offsets
    have hsign : cs[i]? = some '%' := by
      rw [← List.head?_drop, hi, List.head?_cons]
    have hplace : (i : ℤ) ∈ ss.map offset := by
      rw [h.map_offset, List.mem_map]
      refine ⟨('%', i), ?_, rfl⟩
      rw [List.mem_filter, List.mem_zipIdx_iff_getElem?]
      exact ⟨hsign, by simp⟩
    rcases List.mem_map.mp hplace with ⟨s, hs, hoffset⟩
    rw [← honly s hs hoffset]
    exact hs

/-! ## Where the two readings part -/

/-- The lexeme and the text that is found in a literal are the same up to the character `next`. The
one that goes on over it is the longer one, and if none does they are the same. -/
structure Parting (shared : List Char) (next : Option Char) (lexeme found : List Char) : Prop where
  lexeme_starts : shared <+: lexeme
  found_starts : shared <+: found
  /-- No character continues both. -/
  one_ends : lexeme = shared ∨ found = shared
  prefix_or : lexeme <+: found ∨ found <+: lexeme
  eq_iff : lexeme = found ↔ ∀ c ∈ next, c ≠ '_' ∧ Text.isForeign c = false
  found_longer_iff : lexeme.length < found.length ↔ next = some '_'
  lexeme_longer_iff : found.length < lexeme.length ↔ ∃ c ∈ next, Text.isForeign c = true

variable {next : Option Char} {us vs : List Char}

/-- What two readings add to what they share. Each adds something if the next character is one of
its own, and no character is one of both. -/
theorem parting_of_append (shared : List Char)
    (hus : us ≠ [] ↔ ∃ c ∈ next, Text.isForeign c = true) (hvs : vs ≠ [] ↔ next = some '_') :
    Parting shared next (shared ++ us) (shared ++ vs) := by
  -- the next character is not of both classes, so one of the readings has nothing to add
  have hnone : us = [] ∨ vs = [] := by
    by_contra hboth
    rw [not_or] at hboth
    rcases hus.mp hboth.1 with ⟨c, hc, hforeign⟩
    rw [hvs.mp hboth.2] at hc
    cases hc
    revert hforeign
    decide
  refine ⟨List.prefix_append shared us, List.prefix_append shared vs, ?_, ?_, ?_, ?_, ?_⟩
  · rw [List.append_right_eq_self, List.append_right_eq_self]
    exact hnone
  · rw [List.prefix_append_right_inj, List.prefix_append_right_inj]
    rcases hnone with rfl | rfl
    · exact .inl List.nil_prefix
    · exact .inr List.nil_prefix
  · -- two texts are the same just if neither has anything to add
    have hsame : us = vs ↔ vs = [] ∧ us = [] := by
      rcases hnone with rfl | rfl
      · simp [eq_comm]
      · simp
    have hneither : (∀ c ∈ next, c ≠ '_' ∧ Text.isForeign c = false) ↔
        ¬ next = some '_' ∧ ¬ ∃ c ∈ next, Text.isForeign c = true := by
      cases next <;> simp
    rw [List.append_cancel_left_eq, hneither, ← hus, ← hvs, not_not, not_not]
    exact hsame
  · rw [← hvs]
    rcases hnone with rfl | rfl
    · simp [List.length_pos_iff]
    · simp
  · rw [← hus]
    rcases hnone with rfl | rfl
    · simp
    · simp [List.length_pos_iff]

/-- The two readings of what stands behind a percent sign part at the first character that they do
not share. -/
theorem parting_takeWhile (behind : List Char) :
    Parting ('%' :: behind.takeWhile isShared) (behind.dropWhile isShared).head?
      ('%' :: behind.takeWhile Lexeme.isDirectivePart) ('%' :: behind.takeWhile isPart) := by
  have hlexeme := takeWhile_eq_append (p := isShared) (q := Lexeme.isDirectivePart)
    (fun c hc => by rw [Lexeme.isDirectivePart_eq, hc, Bool.true_or]) behind
  have hfound := takeWhile_eq_append (p := isShared) (q := isPart)
    (fun c hc => by rw [isPart_eq, hc, Bool.true_or]) behind
  have hshared := (longestRun_takeWhile isShared behind).2
  rw [hlexeme, hfound, ← List.cons_append, ← List.cons_append]
  -- what one reading adds is known by the first character that is not shared
  apply parting_of_append
  · rw [takeWhile_ne_nil_iff]
    refine exists_congr fun c => and_congr_right fun hc => ?_
    rw [Lexeme.isDirectivePart_eq, hshared c hc, Bool.false_or]
  · rw [takeWhile_ne_nil_iff]
    constructor
    · rintro ⟨c, hc, hpart⟩
      rw [isPart_eq, hshared c hc, Bool.false_or, decide_eq_true_eq] at hpart
      rw [← hpart]
      exact hc
    · intro hunderscore
      exact ⟨'_', hunderscore, rfl⟩

end Specifier

namespace Cursor

/-- A directive is read at any character, and no strictness refuses it. -/
theorem perform_directive {s : Cursor} {c : Char} {cs : List Char} (h : s.rest = c :: cs) :
    (s.perform .directive).1 = .ok (.token ((Lexeme.directive c cs).token s.position)) := by
  rw [perform, withNext, h]
  rfl

/-- At every percent sign of a line the cursor reads a lexeme and the search finds one directive.
One of the two is a prefix of the other. They are the same unless the run of letters, digits and
points of ASCII behind the sign is followed by an underscore, which only the search goes over, or by
a letter or decimal digit that is not in ASCII, which only the cursor goes over. -/
theorem directive_parting (strict : Strictness) (line : String) (number : ℤ) {i : ℕ}
    (hi : line.toList[i]? = some '%') :
    let behind := line.toList.drop (i + 1)
    ∃ (t : Token) (s : Specifier),
      (perform ⟨line.toList, strict, number, i⟩ .directive).1 = .ok (.token t) ∧
      t.kind = .directive ∧ t.span.start = .ofIndex number i ∧
      (∀ s', s' ∈ Specifier.extract line ∧ s'.offset = i ↔ s' = s) ∧
      Specifier.Parting ('%' :: behind.takeWhile Specifier.isShared)
        (behind.dropWhile Specifier.isShared).head? t.text.toList s.text.toList := by
  intro behind
  obtain ⟨hlt, hsign⟩ := List.getElem?_eq_some_iff.mp hi
  have hdrop : line.toList.drop i = '%' :: behind := by
    rw [List.drop_eq_getElem_cons hlt, hsign]
  -- no sign is in the run of another, so every sign is found, and its directive only once
  have hfound := Specifier.found_extractFrom 0 line.toList
  refine ⟨_, _, perform_directive hdrop, rfl, rfl, fun s' => hfound.mem_iff hdrop, ?_⟩
  rw [Lexeme.token, Specifier.ofRun, String.toList_ofList, String.toList_ofList]
  exact Specifier.parting_takeWhile behind

/-- Behind the first sign comes an underscore and then a foreign letter, and behind the second one
they come the other way round. -/
theorem directive_parting_bothWays :
    let line := "%5._é%é_.2f"
    let lexeme (i : ℕ) := (perform ⟨line.toList, {}, 1, i⟩ .directive).1
    line.toList[0]? = some '%' ∧ line.toList[5]? = some '%' ∧
      (∃ t, ∃ s ∈ Specifier.extract line, lexeme 0 = .ok (.token t) ∧ s.offset = 0 ∧
        t.text.toList.length < s.text.toList.length) ∧
      ∃ t, ∃ s ∈ Specifier.extract line, lexeme 5 = .ok (.token t) ∧ s.offset = 5 ∧
        s.text.toList.length < t.text.toList.length := by
  intro line lexeme
  have hfirst : line.toList[0]? = some '%' := by decide +kernel
  have hsecond : line.toList[5]? = some '%' := by decide +kernel
  refine ⟨hfirst, hsecond, ?_, ?_⟩
  · obtain ⟨t, s, ht, -, -, hs, hparting⟩ := directive_parting {} line 1 hfirst
    obtain ⟨hmem, hoffset⟩ := (hs s).mpr rfl
    refine ⟨t, s, hmem, ht, hoffset, ?_⟩
    exact hparting.found_longer_iff.mpr (by decide +kernel)
  · obtain ⟨t, s, ht, -, -, hs, hparting⟩ := directive_parting {} line 1 hsecond
    obtain ⟨hmem, hoffset⟩ := (hs s).mpr rfl
    refine ⟨t, s, hmem, ht, hoffset, ?_⟩
    exact hparting.lexeme_longer_iff.mpr ⟨'é', by decide +kernel, by decide +kernel⟩

end Cursor

end PrintfLint
