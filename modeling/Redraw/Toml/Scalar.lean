import Redraw.Toml.Value
import Redraw.Toml.Text

/-!
# Numbers, times and truth values

Values that are written without quotes or brackets. Such a value is a word; blanks in the middle belong to
it, as between a date and a time.
-/

namespace Redraw.Toml

/-! ### Digits -/

/-- Digits with single underscores between them; there is at least one digit. -/
def digits? (isDigit : Char → Bool) : List Char → Option (List Char)
  | [] => none
  | [c] => if isDigit c then some [c] else none
  | c :: '_' :: rest => if isDigit c then (digits? isDigit rest).map (c :: ·) else none
  | c :: rest => if isDigit c then (digits? isDigit rest).map (c :: ·) else none

def valueOf (base : Nat) (digits : List Char) : Nat :=
  digits.foldl (fun n c => base * n + (hexDigit? c).getD 0) 0

/-- Decimal digits without a needless zero in front. -/
def wholeDigits? (cs : List Char) : Option (List Char) := do
  let digits ← digits? Char.isDigit cs
  if 1 < digits.length && digits.head? == some '0' then none else some digits

/-- Takes a sign off; the first part is true for a minus. -/
def splitSign : List Char → Bool × List Char
  | '-' :: rest => (true, rest)
  | '+' :: rest => (false, rest)
  | cs => (false, cs)

def signed (negative : Bool) (n : Nat) : Int := if negative then -n else n

/-- A sign, if there is one, and decimal digits. -/
def signedDigits? (cs : List Char) : Option (Bool × List Char) :=
  let (negative, digits) := splitSign cs
  (wholeDigits? digits).map (negative, ·)

/-! ### Integers -/

/-- Every underscore stands between two digits; `afterDigit` says that a digit stands in front. -/
def underscoresFit (isDigit : Char → Bool) (afterDigit : Bool) : List Char → Bool
  | [] => true
  | ['_'] => false
  | '_' :: c :: rest => afterDigit && isDigit c && underscoresFit isDigit true rest
  | c :: rest => underscoresFit isDigit (isDigit c) rest

def isHexDigit (c : Char) : Bool := (hexDigit? c).isSome

/-- Digits in a base; without any the number is garbled. -/
def inBase? (base : Nat) (isDigit : Char → Bool) (digits : List Char) : Option Value :=
  if digits.isEmpty then some .garbled
  else (digits? isDigit digits).map fun digits => .integer (valueOf base digits)

/-- A decimal integer. What comes after its first underscore is taken as it is as long as the underscores
stand between hexadecimal digits, but the number is garbled if other than decimal digits are in it. -/
def integer? (cs : List Char) : Option Value :=
  match signedDigits? cs with
  | some (negative, digits) => some (.integer (signed negative (valueOf 10 digits)))
  | none =>
    let (_, unsigned) := splitSign cs
    if (unsigned.dropWhile Char.isDigit).head? == some '_' && unsigned.head? != some '0' &&
        underscoresFit isHexDigit false unsigned then some .garbled
    else none

/-! ### Decimals -/

def isExponentMark (c : Char) : Bool := c == 'e' || c == 'E'

def exponent? : List Char → Option Int
  | [] => some 0
  | _ :: rest => do
    let (negative, digits) := splitSign rest
    return signed negative (valueOf 10 (← digits? Char.isDigit digits))

/-- A decimal with a fraction, an exponent or both. -/
def decimal? (cs : List Char) : Option FloatLiteral := do
  let (mantissa, tail) := cs.span fun c => !isExponentMark c
  let exponent ← exponent? tail
  let (whole, fraction) := mantissa.span fun c => c != '.'
  let (negative, whole) ← signedDigits? whole
  match fraction with
  | [] => if tail.isEmpty then none else some (.decimal negative (valueOf 10 whole) exponent)
  | _ :: rest =>
    let places ← digits? Char.isDigit rest
    return .decimal negative (valueOf 10 (whole ++ places)) (exponent - places.length)

/-- What is infinite or no number at all. -/
def special? (cs : List Char) : Option FloatLiteral :=
  match splitSign cs with
  | (negative, ['i', 'n', 'f']) => some (.infinite negative)
  | (_, ['n', 'a', 'n']) => some .nan
  | _ => none

/-! ### Dates and times -/

def twoDigits? (a b : Char) : Option Nat :=
  if a.isDigit && b.isDigit then some (valueOf 10 [a, b]) else none

def isLeapYear (year : Nat) : Bool :=
  year % 4 == 0 && (year % 100 != 0 || year % 400 == 0)

def daysInMonth (year month : Nat) : Nat :=
  if month = 2 then if isLeapYear year then 29 else 28
  else if month ∈ [4, 6, 9, 11] then 30
  else 31

def date? : List Char → Option (Date × List Char)
  | y1 :: y2 :: y3 :: y4 :: '-' :: m1 :: m2 :: '-' :: d1 :: d2 :: rest => do
    let year := 100 * (← twoDigits? y1 y2) + (← twoDigits? y3 y4)
    let month ← twoDigits? m1 m2
    let day ← twoDigits? d1 d2
    if 1 ≤ month ∧ month ≤ 12 ∧ 1 ≤ day ∧ day ≤ daysInMonth year month then
      some (⟨year, month, day⟩, rest)
    else none
  | _ => none

def hourMinute? : List Char → Option ((Nat × Nat) × List Char)
  | h1 :: h2 :: ':' :: m1 :: m2 :: rest => do
    let hour ← twoDigits? h1 h2
    let minute ← twoDigits? m1 m2
    if hour < 24 ∧ minute < 60 then some ((hour, minute), rest) else none
  | _ => none

/-- A time of day and what follows it. The seconds may be left out; a minute may have a leap second. -/
def time? (cs : List Char) : Option (Time × List Char) := do
  let ((hour, minute), rest) ← hourMinute? cs
  match rest with
  | ':' :: s1 :: s2 :: rest =>
    let second ← twoDigits? s1 s2
    if 60 < second then none
    match rest with
    | '.' :: rest =>
      let (fraction, rest) := rest.span Char.isDigit
      if fraction.isEmpty then none else some (⟨hour, minute, second, fraction⟩, rest)
    | rest => some (⟨hour, minute, second, []⟩, rest)
  | ':' :: _ => none
  | rest => some (⟨hour, minute, 0, []⟩, rest)

/-- The offset that ends a time; with nothing left there is none. -/
def offset? : List Char → Option (Option Offset)
  | [] => some none
  | ['Z'] => some (some .universal)
  | ['z'] => some (some .universal)
  | '+' :: rest => do
    let ((hour, minute), rest) ← hourMinute? rest
    if rest.isEmpty then some (some (.shifted false hour minute)) else none
  | '-' :: rest => do
    let ((hour, minute), rest) ← hourMinute? rest
    if rest.isEmpty then some (some (.shifted true hour minute)) else none
  | _ => none

/-- A letter or a blank between a date and a time. -/
def isTimeMark (c : Char) : Bool := c == 'T' || c == 't' || c == ' '

def datetime? (cs : List Char) : Option Datetime :=
  match date? cs with
  | some (date, []) => some (.date date)
  | some (date, mark :: rest) => do
    if !isTimeMark mark then none
    let (time, rest) ← time? rest
    return .both date time (← offset? rest)
  | none => do
    let (time, rest) ← time? cs
    if rest.isEmpty then some (.time time) else none

/-! ### Words -/

/-- The value of a number, a date or a time: what comes after the first digits tells which it is. -/
def ofDigits? (cs : List Char) : Option Value :=
  let tail := (splitSign cs).2.dropWhile Char.isDigit
  if tail.head? == some '-' || tail.head? == some ':' then (datetime? cs).map .datetime
  else if tail.contains ' ' then none
  else if tail.any fun c => c == '.' || isExponentMark c then (decimal? cs).map .float
  else integer? cs

def ofWord? : List Char → Option Value
  | ['t', 'r', 'u', 'e'] => some (.bool true)
  | ['f', 'a', 'l', 's', 'e'] => some (.bool false)
  | '0' :: 'x' :: digits => inBase? 16 isHexDigit digits
  | '0' :: 'o' :: digits => inBase? 8 (fun c => '0' ≤ c && c ≤ '7') digits
  | '0' :: 'b' :: digits => inBase? 2 (fun c => c == '0' || c == '1') digits
  | cs =>
    match special? cs with
    | some x => some (.float x)
    | none => ofDigits? cs

def endsWord (c : Char) : Bool :=
  c == '=' || c == ',' || c == '[' || c == ']' || c == '\x7b' || c == '\x7d' || c == '#' || c == '\n' ||
    c == '\r'

/-- A word goes on with the character. After blanks it does not go on with a point or a quote. -/
def continuesWord (afterBlanks : Bool) (c : Char) : Bool :=
  !endsWord c && !(afterBlanks && (c == '.' || c == '\x22' || c == '\x27'))

/-- A word and what follows it and the blanks after it. `blanks` are those just read, the last one first:
they belong to the word if it goes on after them. -/
def takeWord (blanks : List Char) : List Char → List Char × List Char
  | [] => ([], [])
  | c :: rest =>
    if isBlank c then takeWord (c :: blanks) rest
    else if continuesWord (!blanks.isEmpty) c then
      let (word, rest) := takeWord [] rest
      (blanks.reverse ++ c :: word, rest)
    else ([], c :: rest)

/-- Reads a word and its value. -/
def scalar? (cs : List Char) : Option (Value × List Char) := do
  let (word, rest) := takeWord [] cs
  return (← ofWord? word, rest)

end Redraw.Toml
