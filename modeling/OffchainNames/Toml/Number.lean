import OffchainNames.Toml.Lexeme
import OffchainNames.Toml.Value

/-!
# Numbers and times of TOML

What starts with a digit or a sign. Single underscores may stand between digits. A whole number has at
most 63 bits and a sign; in bases two, eight and sixteen it has no sign. A number with a point or an
exponent must not exceed what 64 bits hold. A date is one that the calendar has.
-/

namespace OffchainNames

namespace Toml

/-- Takes digits of a base, between which single underscores may stand. -/
def digitRun (base : Nat) : List Char → List Nat × List Char
  | [] => ([], [])
  | c :: rest =>
    match Net.digitBelow? base c with
    | none => ([], c :: rest)
    | some d =>
      match rest with
      | '_' :: next :: more =>
        if (Net.digitBelow? base next).isSome then
          let (ds, after) := digitRun base (next :: more)
          (d :: ds, after)
        else ([d], rest)
      | rest =>
        let (ds, after) := digitRun base rest
        (d :: ds, after)

/-- Takes digits of a base, at least one. -/
def readRun (base : Nat) : Reader (List Nat) := fun cs =>
  match digitRun base cs with
  | ([], _) => none
  | r => some r

/-- Takes a sign if there is one, and says whether it is a minus. -/
def readSign : List Char → Bool × List Char
  | '-' :: rest => (true, rest)
  | '+' :: rest => (false, rest)
  | cs => (false, cs)

/-- Takes whole digits: a zero stands alone. -/
def readWhole : Reader (List Nat)
  | '0' :: rest => some ([0], rest)
  | cs => readRun 10 cs

/-- Takes the digits after a point; there need not be a point. -/
def readFraction : Reader (Option (List Nat))
  | '.' :: rest => (readRun 10 rest).map fun (ds, rest) => (some ds, rest)
  | cs => some (none, cs)

/-- Takes an exponent; there need not be one. -/
def readExponent : Reader (Option Int)
  | c :: rest =>
    if c = 'e' ∨ c = 'E' then
      let (negative, rest) := readSign rest
      (readRun 10 rest).map fun (ds, rest) =>
        let n : Int := Net.ofDigits 10 ds
        (some (if negative then -n else n), rest)
    else some (none, c :: rest)
  | [] => some (none, [])

/-- Whether a number, given by its digits and an exponent of ten, rounds to one that 64 bits hold: it
lies below the middle between the largest such number and the next power of two. -/
def isFinite (ds : List Nat) (exponent : Int) : Bool :=
  let n := Net.ofDigits 10 ds
  let limit := Nat.pow 2 1024 - Nat.pow 2 970
  if n = 0 then true
  else if exponent < 0 then
    ds.length ≤ exponent.natAbs + 300 || decide (n < limit * Nat.pow 10 (min exponent.natAbs ds.length))
  else decide (exponent.natAbs < 310) && decide (n * Nat.pow 10 (min exponent.natAbs 310) < limit)

/-- A whole number that has at most 63 bits and a sign. -/
def integer? (n : Int) : Option Value :=
  let limit : Int := Nat.pow 2 63
  if -limit ≤ n ∧ n < limit then some (.integer n) else none

/-- Takes the digits of a number in a base other than ten. -/
def readBased (base : Nat) : Reader Value := fun cs => do
  let (ds, rest) ← readRun base cs
  let value ← integer? (Net.ofDigits base ds)
  some (value, rest)

/-- Takes what follows a sign. -/
def readUnsigned (negative : Bool) : Reader Value
  | 'i' :: 'n' :: 'f' :: rest => some (.float, rest)
  | 'n' :: 'a' :: 'n' :: rest => some (.float, rest)
  | cs => do
    let (whole, rest) ← readWhole cs
    let (fraction, rest) ← readFraction rest
    let (exponent, rest) ← readExponent rest
    match fraction, exponent with
    | none, none =>
      let n : Int := Net.ofDigits 10 whole
      let value ← integer? (if negative then -n else n)
      some (value, rest)
    | _, _ =>
      let after := fraction.getD []
      if negative || isFinite (whole ++ after) (exponent.getD 0 - after.length) then
        some (.float, rest)
      else none

/-- Takes a number. -/
def readNumber : Reader Value
  | '0' :: 'x' :: rest => readBased 16 rest
  | '0' :: 'o' :: rest => readBased 8 rest
  | '0' :: 'b' :: rest => readBased 2 rest
  | cs =>
    let (negative, rest) := readSign cs
    readUnsigned negative rest

/-- Takes so many digits that write a number within bounds. -/
def readField (width low high : Nat) : Reader Nat := fun cs =>
  match Net.digits 10 (cs.take width) with
  | (ds, []) =>
    let n := Net.ofDigits 10 ds
    if ds.length = width ∧ low ≤ n ∧ n ≤ high then some (n, cs.drop width) else none
  | _ => none

/-- Takes a character. -/
def readChar (c : Char) : List Char → Option (List Char)
  | d :: rest => if d = c then some rest else none
  | [] => none

/-- The number of days of a month. -/
def daysOf (year month : Nat) : Nat :=
  if month = 2 then if year % 4 = 0 ∧ (year % 100 ≠ 0 ∨ year % 400 = 0) then 29 else 28
  else if month = 4 ∨ month = 6 ∨ month = 9 ∨ month = 11 then 30
  else 31

/-- Takes a date. -/
def readDate (cs : List Char) : Option (List Char) := do
  let (year, cs) ← readField 4 0 9999 cs
  let cs ← readChar '-' cs
  let (month, cs) ← readField 2 1 12 cs
  let cs ← readChar '-' cs
  let (_, cs) ← readField 2 1 (daysOf year month) cs
  some cs

/-- Takes the hour and the minute. -/
def readClock (cs : List Char) : Option (List Char) := do
  let (_, cs) ← readField 2 0 23 cs
  let cs ← readChar ':' cs
  let (_, cs) ← readField 2 0 59 cs
  some cs

/-- Takes a time of day. -/
def readTime (cs : List Char) : Option (List Char) := do
  let cs ← readClock cs
  let cs ← readChar ':' cs
  let (_, cs) ← readField 2 0 60 cs
  match cs with
  | '.' :: rest =>
    match Net.digits 10 rest with
    | ([], _) => none
    | (_, rest) => some rest
  | cs => some cs

/-- Takes the distance from universal time; there need not be one. -/
def readOffset : List Char → Option (List Char)
  | c :: rest =>
    if c = 'Z' ∨ c = 'z' then some rest
    else if c = '+' ∨ c = '-' then readClock rest
    else some (c :: rest)
  | [] => some []

/-- Takes a time of day after a date; there need not be one. -/
def readTimeOfDate : List Char → Option (List Char)
  | c :: rest =>
    if c = 'T' ∨ c = 't' ∨ c = ' ' then
      match readTime rest with
      | some rest => readOffset rest
      | none => some (c :: rest)
    else some (c :: rest)
  | [] => some []

/-- Takes a date, a time, or both. -/
def readMoment (cs : List Char) : Option (List Char) :=
  match readDate cs with
  | some rest => readTimeOfDate rest
  | none => readTime cs

/-- Takes a number or a time. -/
def readScalar : Reader Value := fun cs =>
  match readMoment cs with
  | some rest => some (.moment, rest)
  | none => readNumber cs

end Toml

end OffchainNames
