import Mathlib.Init

namespace Toml
set_option autoImplicit true

def isHexDigit (c : Char) : Bool := c.isDigit || 'a' ≤ c && c ≤ 'f' || 'A' ≤ c && c ≤ 'F'

def isOctDigit (c : Char) : Bool := '0' ≤ c && c ≤ '7'

def isBinDigit (c : Char) : Bool := c = '0' || c = '1'

/-- Digits, which single underscores may keep apart. -/
def digits (ok : Char → Bool) : List Char → Bool
  | [] => false
  | [c] => ok c
  | c :: '_' :: rest => ok c && digits ok rest
  | c :: rest => ok c && digits ok rest

/-- A decimal number has no leading zeros. -/
def unsigned (t : List Char) : Bool := t = ['0'] || digits Char.isDigit t && t.head? ≠ some '0'

def dropSign : List Char → List Char
  | '+' :: t => t
  | '-' :: t => t
  | t => t

def isInteger (t : List Char) : Bool :=
  unsigned (dropSign t) ||
    match t with
    | '0' :: 'x' :: rest => digits isHexDigit rest
    | '0' :: 'o' :: rest => digits isOctDigit rest
    | '0' :: 'b' :: rest => digits isBinDigit rest
    | _ => false

def digitValue (c : Char) : Nat :=
  if c.isDigit then c.toNat - 48 else if 'a' ≤ c then c.toNat - 87 else c.toNat - 55

def natValue (base : Nat) (t : List Char) : Nat :=
  t.foldl (fun n c => if c = '_' then n else n * base + digitValue c) 0

def intValue (t : List Char) : Option Int :=
  if isInteger t then
    match t with
    | '0' :: 'x' :: rest => some (natValue 16 rest)
    | '0' :: 'o' :: rest => some (natValue 8 rest)
    | '0' :: 'b' :: rest => some (natValue 2 rest)
    | '-' :: rest => some (-(natValue 10 rest))
    | _ => some (natValue 10 (dropSign t))
  else none

def isExponent : List Char → Bool
  | c :: t => (c = 'e' || c = 'E') && digits Char.isDigit (dropSign t)
  | [] => false

def isNumeric (c : Char) : Bool := c.isDigit || c = '_'

def isFraction : List Char → Bool
  | '.' :: t => digits Char.isDigit (t.takeWhile isNumeric) &&
      (t.dropWhile isNumeric = [] || isExponent (t.dropWhile isNumeric))
  | _ => false

def isFloat (t : List Char) : Bool :=
  dropSign t = ['i', 'n', 'f'] || dropSign t = ['n', 'a', 'n'] ||
    unsigned ((dropSign t).takeWhile isNumeric) &&
      (isFraction ((dropSign t).dropWhile isNumeric) ||
        isExponent ((dropSign t).dropWhile isNumeric))

def daysIn (year month : Nat) : Nat :=
  if month = 2 then
    if year % 4 = 0 && (year % 100 ≠ 0 || year % 400 = 0) then 29 else 28
  else if month = 4 || month = 6 || month = 9 || month = 11 then 30 else 31

def isDate : List Char → Bool
  | [y₁, y₂, y₃, y₄, '-', m₁, m₂, '-', d₁, d₂] =>
    [y₁, y₂, y₃, y₄, m₁, m₂, d₁, d₂].all Char.isDigit &&
      1 ≤ natValue 10 [m₁, m₂] && natValue 10 [m₁, m₂] ≤ 12 && 1 ≤ natValue 10 [d₁, d₂] &&
      natValue 10 [d₁, d₂] ≤ daysIn (natValue 10 [y₁, y₂, y₃, y₄]) (natValue 10 [m₁, m₂])
  | _ => false

def isClock : List Char → Bool
  | [h₁, h₂, ':', m₁, m₂] =>
    [h₁, h₂, m₁, m₂].all Char.isDigit && natValue 10 [h₁, h₂] ≤ 23 && natValue 10 [m₁, m₂] ≤ 59
  | _ => false

def isTime (t : List Char) : Bool :=
  isClock (t.take 5) &&
    match t.drop 5 with
    | ':' :: s₁ :: s₂ :: rest =>
      s₁.isDigit && s₂.isDigit && natValue 10 [s₁, s₂] ≤ 60 &&
        match rest with
        | [] => true
        | '.' :: fraction => fraction ≠ [] && fraction.all Char.isDigit
        | _ => false
    | _ => false

def isOffsetTime (t : List Char) : Bool :=
  match t.reverse with
  | 'Z' :: rest => isTime rest.reverse
  | 'z' :: rest => isTime rest.reverse
  | m₂ :: m₁ :: ':' :: h₂ :: h₁ :: sign :: rest =>
    (sign = '+' || sign = '-') && isClock [h₁, h₂, ':', m₁, m₂] && isTime rest.reverse
  | _ => false

def isDateTime (t : List Char) : Bool :=
  isDate t || isTime t ||
    isDate (t.take 10) &&
      match t.drop 10 with
      | c :: time => (c = 'T' || c = 't' || c = ' ') && (isTime time || isOffsetTime time)
      | [] => false

/-- The values that are written without quotes or brackets. -/
def isScalar (t : List Char) : Bool :=
  t = ['t', 'r', 'u', 'e'] || t = ['f', 'a', 'l', 's', 'e'] || isInteger t || isFloat t ||
    isDateTime t

/-- The characters of such values, apart from the blank between a date and a time. -/
def isScalarChar (c : Char) : Bool :=
  c.isAlphanum || c = '+' || c = '-' || c = '_' || c = '.' || c = ':'

end Toml
