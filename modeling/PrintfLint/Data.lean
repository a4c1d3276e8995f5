/-!
# PrintfLint.Data — nested data

* `Data` — scalars, members of enumerations, lists, tuples, tables and records;
* `Data.truncate` — plain data, with a marker for all that is nested too deeply.

Truncation leaves no members, tuples and records: a member becomes its value, a tuple the list of
its items, a record the table of its fields. It does not look into the value of a member, so this is
true only if the values of all members are scalars.
-/

namespace PrintfLint

/-- Nested data. -/
inductive Data where
  | null
  | bool (b : Bool)
  | int (n : Int)
  /-- The number `mantissa / 10 ^ places`. -/
  | decimal (mantissa : Int) (places : Nat)
  | text (s : String)
  /-- A member of an enumeration, with the value that it stands for. -/
  | member (value : Data)
  | seq (items : List Data)
  | tuple (items : List Data)
  | table (entries : List (String × Data))
  | record (fields : List (String × Data))

namespace Data

/-- What stands for data that is nested too deeply. -/
def marker : Data :=
  .table [("_truncated", .bool true)]

mutual

/-- Makes data plain and keeps `limit` levels below the top one; a marker stands for each part below
them. The value of a member is taken as it is. -/
def truncate (limit : Int) : Data → Data
  | null => if limit < 0 then marker else null
  | bool b => if limit < 0 then marker else bool b
  | int n => if limit < 0 then marker else int n
  | decimal m p => if limit < 0 then marker else decimal m p
  | text s => if limit < 0 then marker else text s
  | member value => if limit < 0 then marker else value
  | seq items => if limit < 0 then marker else seq (truncateItems (limit - 1) items)
  | tuple items => if limit < 0 then marker else seq (truncateItems (limit - 1) items)
  | table entries => if limit < 0 then marker else table (truncateFields (limit - 1) entries)
  | record fields => if limit < 0 then marker else table (truncateFields (limit - 1) fields)

/-- Truncates each item of a list. -/
def truncateItems (limit : Int) : List Data → List Data
  | [] => []
  | x :: xs => truncate limit x :: truncateItems limit xs

/-- Truncates the value of each field. -/
def truncateFields (limit : Int) : List (String × Data) → List (String × Data)
  | [] => []
  | (k, x) :: rest => (k, truncate limit x) :: truncateFields limit rest

end

/-- How many levels are kept unless something else is asked for. -/
def defaultLimit : Int := 12

end Data

end PrintfLint
