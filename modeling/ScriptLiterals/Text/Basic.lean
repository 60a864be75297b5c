/-!
Texts as lists of characters, and the decimal text of a number.
-/

namespace ScriptLiterals

/-- A text is its list of characters: counts, columns and cuts are in code points. -/
abbrev Text := List Char

namespace Text

def ofNat (n : Nat) : Text := Nat.toDigits 10 n

def ofInt : Int → Text
  | .ofNat n => ofNat n
  | .negSucc n => '-' :: ofNat (n + 1)

def copies (count : Int) (c : Char) : Text := List.replicate count.toNat c

def joined (separator : Text) (texts : List Text) : Text := separator.intercalate texts

def cutAt? (c : Char) : Text → Option (Text × Text)
  | [] => none
  | d :: rest =>
    if d = c then some ([], rest)
    else (cutAt? c rest).map fun (before, after) => (d :: before, after)

def pieces (c : Char) : Text → List Text
  | [] => [[]]
  | d :: rest =>
    match pieces c rest with
    | [] => [[d]]
    | piece :: more => if d = c then [] :: piece :: more else (d :: piece) :: more

end Text
end ScriptLiterals
