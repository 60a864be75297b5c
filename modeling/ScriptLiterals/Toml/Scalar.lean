import ScriptLiterals.Toml.Lexical

/-!
Booleans, numbers, dates and times. A rule takes the longest text of its form and leaves the rest,
also if the next character cannot follow; a date is then told from a number by being tried first.
-/

namespace ScriptLiterals.Toml

def isDecimalDigit (c : Char) : Bool := '0' ≤ c && c ≤ '9'

def ofDecimal (digits : Text) : Nat := digits.foldl (fun value c => value * 10 + (c.toNat - 48)) 0

def strip? : Text → Text → Option Text
  | [], source => some source
  | _ :: _, [] => none
  | c :: more, d :: rest => if c = d then strip? more rest else none

def moreDigits (p : Char → Bool) : Text → Text × Text
  | '_' :: c :: rest =>
    if p c then
      let (digits, rest) := moreDigits p rest
      (c :: digits, rest)
    else ([], '_' :: c :: rest)
  | c :: rest =>
    if p c then
      let (digits, rest) := moreDigits p rest
      (c :: digits, rest)
    else ([], c :: rest)
  | [] => ([], [])

def digits? (p : Char → Bool) : Text → Option (Text × Text)
  | c :: rest =>
    if p c then
      let (digits, rest) := moreDigits p rest
      some (c :: digits, rest)
    else none
  | [] => none

def sign : Text → Bool × Text
  | '+' :: rest => (false, rest)
  | '-' :: rest => (true, rest)
  | source => (false, source)

def skipFraction : Text → Text
  | '.' :: rest =>
    match digits? isDecimalDigit rest with
    | some (_, rest) => rest
    | none => '.' :: rest
  | source => source

def skipExponent : Text → Text
  | c :: rest =>
    if c = 'e' || c = 'E' then
      match digits? isDecimalDigit (sign rest).2 with
      | some (_, rest) => rest
      | none => c :: rest
    else c :: rest
  | [] => []

def radixNumber? : Text → Option (Nat × Text)
  | '0' :: 'x' :: rest => (digits? isHexDigit rest).map fun (digits, rest) => (ofHex digits, rest)
  | '0' :: 'b' :: rest =>
    (digits? (fun c => c = '0' || c = '1') rest).map fun (digits, rest) =>
      (digits.foldl (fun value c => value * 2 + (c.toNat - 48)) 0, rest)
  | '0' :: 'o' :: rest =>
    (digits? (fun c => '0' ≤ c && c ≤ '7') rest).map fun (digits, rest) =>
      (digits.foldl (fun value c => value * 8 + (c.toNat - 48)) 0, rest)
  | _ => none

def wholePart? : Text → Option (Text × Text)
  | '0' :: rest => some (['0'], rest)
  | source => digits? isDecimalDigit source

def maxIntegerDigits : Nat := 4300

def decimalNumber? (source : Text) : Option (Except Fault Value × Text) :=
  let (negative, unsigned) := sign source
  (wholePart? unsigned).map fun (digits, rest) =>
    let after := skipExponent (skipFraction rest)
    if after.length < rest.length then
      (.ok (.float (source.take (source.length - after.length))), after)
    else if digits.length ≤ maxIntegerDigits then
      (.ok (.integer (if negative then -(ofDecimal digits : Int) else ofDecimal digits)), rest)
    else (.error (.tooManyDigits digits.length), rest)

def fixedDigits? (count low high : Nat) (source : Text) : Option (Nat × Text) :=
  let digits := source.take count
  if digits.length = count && digits.all isDecimalDigit && low ≤ ofDecimal digits &&
      ofDecimal digits ≤ high then
    some (ofDecimal digits, source.drop count)
  else none

def skipSecondFraction : Text → Text
  | '.' :: c :: rest => if isDecimalDigit c then rest.dropWhile isDecimalDigit else '.' :: c :: rest
  | source => source

def timeOfDay? (source : Text) : Option Text := do
  let (_, rest) ← fixedDigits? 2 0 23 source
  let (_, rest) ← fixedDigits? 2 0 59 (← strip? [':'] rest)
  let (_, rest) ← fixedDigits? 2 0 59 (← strip? [':'] rest)
  some (skipSecondFraction rest)

def skipOffset (source : Text) : Text :=
  let offset? : Text → Option Text := fun rest => do
    let (_, rest) ← fixedDigits? 2 0 23 rest
    let (_, rest) ← fixedDigits? 2 0 59 (← strip? [':'] rest)
    some rest
  match source with
  | c :: rest =>
    if c = 'z' || c = 'Z' then rest
    else if c = '+' || c = '-' then (offset? rest).getD source
    else source
  | [] => []

def skipTimePart (source : Text) : Text :=
  match source with
  | c :: rest =>
    if c = 'T' || c = 't' || c = ' ' then
      match timeOfDay? rest with
      | some rest => skipOffset rest
      | none => source
    else source
  | [] => []

def daysOfMonth (year month : Nat) : Nat :=
  if month = 2 then if year % 4 = 0 && (year % 100 ≠ 0 || year % 400 = 0) then 29 else 28
  else if month = 4 || month = 6 || month = 9 || month = 11 then 30
  else 31

def date? (source : Text) : Option (Bool × Text) := do
  let (year, rest) ← fixedDigits? 4 0 9999 source
  let (month, rest) ← fixedDigits? 2 1 12 (← strip? ['-'] rest)
  let (day, rest) ← fixedDigits? 2 1 31 (← strip? ['-'] rest)
  some (1 ≤ year && day ≤ daysOfMonth year month, skipTimePart rest)

def wordValues : List (Text × Value) :=
  [("true".toList, .boolean true), ("false".toList, .boolean false)]

def floatWords : List Text :=
  ["inf".toList, "nan".toList, "-inf".toList, "+inf".toList, "-nan".toList, "+nan".toList]

def word? (source : Text) (words : List (Text × Value)) : Option (Value × Text) :=
  words.findSome? fun (word, value) => (strip? word source).map (value, ·)

def scalar? (source : Text) : Except Fault (Value × Text) :=
  match word? source wordValues with
  | some found => .ok found
  | none =>
    match date? source with
    | some (true, rest) => .ok (.moment (source.take (source.length - rest.length)), rest)
    | some (false, _) => .error .invalidDate
    | none =>
      match timeOfDay? source with
      | some rest => .ok (.moment (source.take (source.length - rest.length)), rest)
      | none =>
        match radixNumber? source with
        | some (value, rest) => .ok (.integer value, rest)
        | none =>
          match decimalNumber? source with
          | some (value, rest) => value.map (·, rest)
          | none =>
            match word? source (floatWords.map fun word => (word, .float word)) with
            | some found => .ok found
            | none => .error .invalidValue

/-- A value without parts. A rest that is not shorter would be no value at all. -/
def scalar (source : Text) : Reads Value source.length :=
  match scalar? source with
  | .error fault => .error ⟨fault, source⟩
  | .ok (value, rest) =>
    if h : rest.length < source.length then .ok ⟨value, rest, h⟩ else .error ⟨.invalidValue, source⟩

end ScriptLiterals.Toml
