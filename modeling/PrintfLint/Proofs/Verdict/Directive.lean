import PrintfLint.Proofs.Statement.Opening
import PrintfLint.Proofs.Statement.Depth
import PrintfLint.Proofs.Token.Slice

/-!
# PrintfLint.Proofs.Verdict.Directive — the directives of a literal

* `Specifier.Found` — what a search from left to right finds that goes on behind each directive;
* `Specifier.found_extractFrom` — the directives are found so;
* `Specifier.HasTypeOf` — the types that directives ask for, by their texts;
* `Specifier.Directives` — the directives of a text, one for each percent sign;
* `Piece.take_text` — a part of a token's text stands in the line at its place;
* `Specifier.extract_exact` — the directives of any literal are such, and those of a line stand in
  the line at the places that their offsets say.

No percent sign belongs to a run, so a search that leaves out the run behind a sign misses no other
sign. That is why directives neither overlap nor hold a second sign.
-/

namespace PrintfLint

namespace Specifier

/-! ## The search -/

/-- The directive of a percent sign at an offset, with the run behind it. -/
def ofRun (offset : ℕ) (run : List Char) : Specifier :=
  ⟨String.ofList ('%' :: run), classifyChars ('%' :: run), offset⟩

/-- What a search finds that goes from one percent sign to the next behind its run. -/
inductive Found : ℕ → List Char → List Specifier → Prop where
  | none {n : ℕ} {cs : List Char} (hcs : '%' ∉ cs) : Found n cs []
  | next {n : ℕ} {us run rest : List Char} {ss : List Specifier} (hus : '%' ∉ us)
      (hrun : LongestRun isPart run rest)
      (more : Found (n + (us.length + 1 + run.length)) rest ss) :
      Found n (us ++ '%' :: (run ++ rest)) (ofRun (n + us.length) run :: ss)

theorem notMem_of_longestRun {run rest : List Char} (h : LongestRun isPart run rest) :
    '%' ∉ run := by
  intro hmem
  have hpart := h.1 '%' hmem
  revert hpart
  decide

theorem extractFrom_append_of_notMem {us : List Char} (hus : '%' ∉ us) (n : ℕ)
    (cs : List Char) : extractFrom n (us ++ cs) = extractFrom (n + us.length) cs := by
  induction us generalizing n with
  | nil => rfl
  | cons c us ih =>
    rcases List.ne_and_not_mem_of_not_mem_cons hus with ⟨hc, hus⟩
    rw [List.cons_append, extractFrom, if_neg hc.symm, ih hus, List.length_cons]
    congr 1
    omega

/-- The run behind a percent sign is passed over. -/
theorem extractFrom_sign {run rest : List Char} (h : LongestRun isPart run rest) (n : ℕ) :
    extractFrom n ('%' :: (run ++ rest)) =
      ofRun n run :: extractFrom (n + (1 + run.length)) rest := by
  rw [extractFrom, if_pos rfl, h.takeWhile_eq,
    extractFrom_append_of_notMem (notMem_of_longestRun h), Nat.add_assoc]
  rfl

/-- The directives of a text are those that the search finds. -/
theorem found_extractFrom (n : ℕ) (cs : List Char) : Found n cs (extractFrom n cs) := by
  -- the search goes on behind the run and not behind the first character, so by length
  induction hlength : cs.length using Nat.strong_induction_on generalizing n cs with
  | _ length ih =>
    by_cases hsign : '%' ∈ cs
    · obtain ⟨us, behind, rfl, hus⟩ := List.eq_append_cons_of_mem hsign
      have hrun := longestRun_takeWhile isPart behind
      have hsplit := List.takeWhile_append_dropWhile (p := isPart) (l := behind)
      generalize behind.takeWhile isPart = run, behind.dropWhile isPart = rest at hrun hsplit
      subst hsplit
      have hshorter : rest.length < length := by
        simp only [← hlength, List.length_append, List.length_cons]
        omega
      have hmore := ih _ hshorter (n + (us.length + 1 + run.length)) rest rfl
      rw [extractFrom_append_of_notMem hus, extractFrom_sign hrun]
      have hplace : n + us.length + (1 + run.length) = n + (us.length + 1 + run.length) := by
        omega
      rw [hplace]
      exact .next hus hrun hmore
    · have hnone := extractFrom_append_of_notMem hsign n []
      rw [List.append_nil] at hnone
      rw [hnone]
      exact .none hsign

/-! ## What is found -/

namespace Found

variable {n : ℕ} {cs : List Char} {ss : List Specifier}

/-- Each directive stands at a percent sign, and is as long as it can be. -/
theorem exists_run (h : Found n cs ss) : ∀ s ∈ ss, ∃ (k : ℕ) (run rest : List Char),
    s = ofRun (n + k) run ∧ cs.drop k = '%' :: (run ++ rest) ∧ LongestRun isPart run rest := by
  induction h with
  | none => simp
  | @next n us run rest ss hus hrun _ ih =>
    intro s hs
    -- the first directive is behind the part without a sign, and the others behind its run
    rcases List.mem_cons.mp hs with rfl | hs
    · exact ⟨us.length, run, rest, rfl, List.drop_left, hrun⟩
    · rcases ih s hs with ⟨k, run', rest', rfl, hdrop, hrun'⟩
      refine ⟨us.length + 1 + run.length + k, run', rest', by rw [Nat.add_assoc], ?_, hrun'⟩
      have hfront : us ++ '%' :: (run ++ rest) = (us ++ '%' :: run) ++ rest := by simp
      have hlength : us.length + 1 + run.length + k = (us ++ '%' :: run).length + k := by
        simp only [List.length_append, List.length_cons]
        omega
      rw [hfront, hlength, ← List.drop_drop, List.drop_left, hdrop]

theorem filter_sign_eq_nil {us : List Char} (hus : '%' ∉ us) (n : ℕ) :
    (us.zipIdx n).filter (fun p => p.1 = '%') = [] := by
  rw [List.filter_eq_nil_iff]
  rintro ⟨c, i⟩ hmem
  have hc := List.fst_mem_of_mem_zipIdx hmem
  simp only [decide_eq_true_eq]
  rintro rfl
  exact hus hc

/-- The offsets are the places of the percent signs, in order. -/
theorem map_offset (h : Found n cs ss) : ss.map offset =
    ((cs.zipIdx n).filter fun p => p.1 = '%').map fun p => (p.2 : ℤ) := by
  induction h with
  | none hcs =>
    rw [filter_sign_eq_nil hcs]
    rfl
  | @next n us run rest ss hus hrun _ ih =>
    -- neither what is before the sign nor the run behind it has a sign of its own
    have hbehind : n + us.length + 1 + run.length = n + (us.length + 1 + run.length) := by omega
    rw [List.zipIdx_append, List.filter_append, filter_sign_eq_nil hus, List.nil_append,
      List.zipIdx_cons, List.filter_cons_of_pos (by simp), List.zipIdx_append, List.filter_append,
      filter_sign_eq_nil (notMem_of_longestRun hrun), List.nil_append, List.map_cons, List.map_cons,
      ih, hbehind]
    rfl

/-- No directive starts before the place of the search. -/
theorem le_offset (h : Found n cs ss) : ∀ s ∈ ss, (n : ℤ) ≤ s.offset := by
  intro s hs
  rcases h.exists_run s hs with ⟨k, run, rest, rfl, -⟩
  simp only [ofRun]
  omega

/-- Directives do not overlap. -/
theorem disjoint (h : Found n cs ss) :
    ss.Pairwise fun a b => a.offset + (a.text.length : ℤ) ≤ b.offset := by
  induction h with
  | none => exact .nil
  | @next n us run rest ss _ _ more ih =>
    refine .cons ?_ ih
    intro b hb
    have hle := more.le_offset b hb
    simp only [ofRun, String.length_ofList, List.length_cons]
    omega

end Found

/-! ## Types -/

/-- The type is that which a directive of the text asks for; it is unknown for all texts that are
not listed. -/
structure HasTypeOf (text : String) (type : ValueType) : Prop where
  integer_iff : type = .integer ↔ text = "%d" ∨ text = "%i"
  float_iff : type = .float ↔
    text = "%f" ∨ ∃ d : Char, d.isDigit = true ∧ text = String.ofList ['%', '.', d, 'f']
  string_iff : type = .string ↔ text = "%s"
  char_iff : type = .char ↔ text = "%c"
  unknown_iff : type = .unknown ↔ text ∉ ["%d", "%i", "%f", "%s", "%c"] ∧
    ∀ d : Char, d.isDigit = true → text ≠ String.ofList ['%', '.', d, 'f']

section

variable {cs : List Char}

theorem classifyChars_eq_integer_iff :
    classifyChars cs = .integer ↔ cs = ['%', 'd'] ∨ cs = ['%', 'i'] := by
  unfold classifyChars
  split <;> simp_all [ite_eq_iff]

theorem classifyChars_eq_float_iff : classifyChars cs = .float ↔
    cs = ['%', 'f'] ∨ ∃ d : Char, d.isDigit = true ∧ cs = ['%', '.', d, 'f'] := by
  unfold classifyChars
  split <;> simp_all

theorem classifyChars_eq_string_iff : classifyChars cs = .string ↔ cs = ['%', 's'] := by
  unfold classifyChars
  split <;> simp_all [ite_eq_iff]

theorem classifyChars_eq_char_iff : classifyChars cs = .char ↔ cs = ['%', 'c'] := by
  unfold classifyChars
  split <;> simp_all [ite_eq_iff]

end

/-- A type is unknown if it is none of the others. -/
theorem eq_unknown_iff {t : ValueType} :
    t = .unknown ↔ t ≠ .integer ∧ t ≠ .float ∧ t ≠ .string ∧ t ≠ .char := by
  cases t <;> decide

theorem hasTypeOf_classifyChars (cs : List Char) :
    HasTypeOf (String.ofList cs) (classifyChars cs) := by
  -- a text is told from another by its characters
  have hd : "%d" = String.ofList ['%', 'd'] := rfl
  have hi : "%i" = String.ofList ['%', 'i'] := rfl
  have hf : "%f" = String.ofList ['%', 'f'] := rfl
  have hs : "%s" = String.ofList ['%', 's'] := rfl
  have hc : "%c" = String.ofList ['%', 'c'] := rfl
  have hinteger : classifyChars cs = .integer ↔
      String.ofList cs = "%d" ∨ String.ofList cs = "%i" := by
    rw [hd, hi, String.ofList_inj, String.ofList_inj, classifyChars_eq_integer_iff]
  have hfloat : classifyChars cs = .float ↔ String.ofList cs = "%f" ∨
      ∃ d : Char, d.isDigit = true ∧ String.ofList cs = String.ofList ['%', '.', d, 'f'] := by
    simp only [hf, String.ofList_inj, classifyChars_eq_float_iff]
  have hstring : classifyChars cs = .string ↔ String.ofList cs = "%s" := by
    rw [hs, String.ofList_inj, classifyChars_eq_string_iff]
  have hchar : classifyChars cs = .char ↔ String.ofList cs = "%c" := by
    rw [hc, String.ofList_inj, classifyChars_eq_char_iff]
  refine ⟨hinteger, hfloat, hstring, hchar, ?_⟩
  rw [eq_unknown_iff, ne_eq, ne_eq, ne_eq, ne_eq, hinteger, hfloat, hstring, hchar]
  simp only [List.mem_cons, List.not_mem_nil, or_false, not_or]
  constructor
  · rintro ⟨⟨hd, hi⟩, ⟨hf, hprecise⟩, hs, hc⟩
    exact ⟨⟨hd, hi, hf, hs, hc⟩, fun d hdigit heq => hprecise ⟨d, hdigit, heq⟩⟩
  · rintro ⟨⟨hd, hi, hf, hs, hc⟩, hprecise⟩
    exact ⟨⟨hd, hi⟩, ⟨hf, fun ⟨d, hdigit, heq⟩ => hprecise d hdigit heq⟩, hs, hc⟩

theorem hasTypeOf_ofRun (offset : ℕ) (run : List Char) :
    HasTypeOf (ofRun offset run).text (ofRun offset run).type :=
  hasTypeOf_classifyChars ('%' :: run)

/-! ## The directives of a text -/

/-- The list holds the directives of a text: one for each percent sign, in order, with the longest
run behind it and the type that the two ask for. They are what a search finds that goes on behind
each of them, since none reaches as far as the next sign. -/
structure Directives (cs : List Char) (ss : List Specifier) : Prop where
  offset_eq : ss.map offset = (cs.zipIdx.filter fun p => p.1 = '%').map fun p => (p.2 : ℤ)
  length_eq : ss.length = cs.count '%'
  text_eq : ∀ s ∈ ss, ∃ (k : ℕ) (run rest : List Char), s.offset = k ∧
    cs.drop k = '%' :: (run ++ rest) ∧ s.text.toList = '%' :: run ∧ LongestRun isPart run rest
  count_sign : ∀ s ∈ ss, s.text.toList.count '%' = 1
  disjoint : ss.Pairwise fun a b => a.offset + (a.text.length : ℤ) ≤ b.offset
  typed : ∀ s ∈ ss, HasTypeOf s.text s.type
  found : Found 0 cs ss

theorem directives_extract (literal : String) :
    Directives literal.toList (extract literal) := by
  have hfound : Found 0 literal.toList (extract literal) := found_extractFrom 0 literal.toList
  -- what is said of each directive is read off the place where it was found
  refine ⟨hfound.map_offset, length_extract literal, ?_, ?_, hfound.disjoint, ?_, hfound⟩
  · intro s hs
    rcases hfound.exists_run s hs with ⟨k, run, rest, rfl, hdrop, hrun⟩
    refine ⟨k, run, rest, ?_, hdrop, String.toList_ofList, hrun⟩
    simp only [ofRun, Nat.zero_add]
  · intro s hs
    rcases hfound.exists_run s hs with ⟨k, run, rest, rfl, -, hrun⟩
    rw [ofRun, String.toList_ofList, List.count_cons_self,
      List.count_eq_zero.mpr (notMem_of_longestRun hrun)]
  · intro s hs
    rcases hfound.exists_run s hs with ⟨k, run, rest, rfl, -⟩
    exact hasTypeOf_ofRun (0 + k) run

end Specifier

/-! ## Their places in the line -/

/-- A part of a token's text stands in the line as far behind the start of the token as it stands
behind that of the text. -/
theorem Piece.take_text {cs part rest : List Char} {number : ℤ} {t : Token} {i j k : ℕ}
    (h : Piece cs number t i j) (hpart : t.text.toList.drop k = part ++ rest) (hne : part ≠ []) :
    (cs.drop (i + k)).take part.length = part := by
  have hfront : cs.drop i = t.text.toList ++ (cs.drop i).drop (j - i) := by
    rw [h.text_eq, List.take_append_drop]
  have hk : k ≤ t.text.toList.length := by
    by_contra hlong
    rw [List.drop_eq_nil_of_le (by omega)] at hpart
    exact hne (List.append_eq_nil_iff.mp hpart.symm).1
  rw [← List.drop_drop, hfront, List.drop_append_of_le_length hk, hpart, List.append_assoc,
    List.take_left]

/-- The directives of any literal are found exactly, one for each percent sign. In a line that
starts as a statement they are those of the literal, whatever comes of the line, and stand in it as
far behind the start of the literal as their offsets say. -/
theorem Specifier.extract_exact :
    (∀ literal : String, Directives literal.toList (extract literal)) ∧
    ∀ (options : Options) (line : String) (number : ℤ) (t : Token),
      Opens (Verdict.ofLine options line number).tokens t →
      (Verdict.ofLine options line number).outcome.specifiers = extract t.text ∧
      ∃ i : ℕ, t.span.start.index = i ∧ ∀ s ∈ extract t.text, ∃ k : ℕ, s.offset = k ∧
        slice line (i + k) (i + k + s.text.length) = s.text := by
  refine ⟨directives_extract, ?_⟩
  intro options line number t hopens
  unfold Verdict.ofLine at hopens ⊢
  -- a line with a lexical error has no tokens to start a statement with
  cases hs : TokenSeq.ofLine options.toStrictness line number with
  | error e =>
    rw [hs] at hopens
    rcases hopens with ⟨p, o, rest, htokens, -⟩
    cases htokens
  | ok ts =>
    rw [hs] at hopens
    have hopens : Opens ts.toList t := hopens
    rcases hopens.exists_body ts.last_kind with ⟨p, o, rest, hbody, -⟩
    -- the literal is a piece of the line, so its text is the line from its index on
    obtain ⟨i, j, -, hpiece⟩ := (TokenSeq.tiles_of_ofLine hs).1.piece t (by simp [hbody])
    refine ⟨TokenSeq.specifiers_of_opens hopens, i, hpiece.start_index, ?_⟩
    intro s hmem
    obtain ⟨k, run, behind, hoffset, hdrop, htext, -⟩ := (directives_extract t.text).text_eq s hmem
    refine ⟨k, hoffset, ?_⟩
    have hpart : (line.toList.drop (i + k)).take ('%' :: run).length = '%' :: run :=
      hpiece.take_text hdrop (List.cons_ne_nil _ _)
    have hlength : s.text.length = ('%' :: run).length := by
      rw [← htext, String.length_toList]
    rw [slice, Nat.add_sub_cancel_left, hlength, hpart, ← htext, String.ofList_toList]

/-- The sample line breaks off behind the literal. Its third sign is followed by a sign and has no
run, the run of the fourth ends before a letter that is not ASCII, and the last sign ends the
literal. -/
theorem Specifier.extract_exact_brokenOff :
    extract "\"%d%s%%_é%.2f%\"" = [⟨"%d", .integer, 1⟩, ⟨"%s", .string, 3⟩, ⟨"%", .unknown, 5⟩,
        ⟨"%_", .unknown, 6⟩, ⟨"%.2f", .float, 9⟩, ⟨"%", .unknown, 13⟩] ∧
      (Verdict.ofLine {} "printf(\"%d%s%%_é%.2f%\"," 1).outcome.specifiers =
        extract "\"%d%s%%_é%.2f%\"" ∧
      slice "printf(\"%d%s%%_é%.2f%\"," 16 20 = "%.2f" := by
  have htokens : (Verdict.ofLine {} "printf(\"%d%s%%_é%.2f%\"," 1).tokens =
      [⟨.printf, "printf", ⟨.ofIndex 1 0, .ofIndex 1 6⟩⟩,
        ⟨.lparen, "(", ⟨.ofIndex 1 6, .ofIndex 1 7⟩⟩,
        ⟨.literal, "\"%d%s%%_é%.2f%\"", ⟨.ofIndex 1 7, .ofIndex 1 22⟩⟩,
        ⟨.comma, ",", ⟨.ofIndex 1 22, .ofIndex 1 23⟩⟩, .ended 1 23] := by
    decide +kernel
  have hextract : extract "\"%d%s%%_é%.2f%\"" = [⟨"%d", .integer, 1⟩, ⟨"%s", .string, 3⟩,
      ⟨"%", .unknown, 5⟩, ⟨"%_", .unknown, 6⟩, ⟨"%.2f", .float, 9⟩, ⟨"%", .unknown, 13⟩] := by
    decide +kernel
  obtain ⟨hspecifiers, i, hi, hslice⟩ := extract_exact.2 {} _ 1 _
    ⟨_, _, _, htokens, rfl, rfl, rfl⟩
  obtain ⟨k, hk, hpart⟩ := hslice ⟨"%.2f", .float, 9⟩ (by simp [hextract])
  obtain rfl : 7 = i := Int.ofNat.inj hi
  obtain rfl : 9 = k := Int.ofNat.inj hk
  exact ⟨hextract, hspecifiers, hpart⟩

end PrintfLint
