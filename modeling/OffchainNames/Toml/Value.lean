/-!
# Values of TOML

A document is a table of values by key. A table remembers how it came about, because that decides
whether later lines may add to it: one that is written on a single line is closed, one with a header takes
more tables below it but no second header, and one that only stands on the way to another takes both.
Numbers with a point and times carry no content: nothing reads one.
-/

namespace OffchainNames

namespace Toml

/-- How a table came about. -/
inductive Form where
  /-- It is written between braces. -/
  | inline
  /-- It has a header. -/
  | header
  /-- A header goes through it. -/
  | implied
  /-- A dotted key goes through it. -/
  | dotted
  deriving DecidableEq, Repr

/-- A value. -/
inductive Value where
  | text (content : String)
  | integer (number : Int)
  /-- A number with a point or an exponent, or one of the names for no number. -/
  | float
  | bool (value : Bool)
  /-- A date, a time, or both. -/
  | moment
  /-- A list; one that is built from headers takes more of them. -/
  | list (fromHeaders : Bool) (items : List Value)
  /-- A table: values by key, each key once. -/
  | table (form : Form) (entries : List (String × Value))
  deriving Repr

/-- Values by key. -/
abbrev Entries := List (String × Value)

namespace Entries

/-- Replaces what stands under a key, which may be nothing, unless that is refused. -/
def alter (key : String) (change : Option Value → Option Value) : Entries → Option Entries
  | [] => (change none).map fun v => [(key, v)]
  | (k, v) :: rest =>
    if k = key then (change (some v)).map fun v => (k, v) :: rest
    else (alter key change rest).map fun rest => (k, v) :: rest

/-- The value under a key. -/
def get? (key : String) (entries : Entries) : Option Value := entries.lookup key

end Entries

end Toml

end OffchainNames
