import ScriptLiterals.Radix
import ScriptLiterals.Source.Character

/-!
The regions that a script consists of. Each begins where the one before it ends, and its first one
or two characters decide its kind. Block comments nest, a backslash in a string hides the character
behind it, and a comment or a string that is never closed runs to the end of the script.

Main statements: the lexemes of a script, one after the other, are the script (`lexemes_flatten`),
and none of them is empty (`text_ne_nil_of_mem_lexemes`).
-/

namespace ScriptLiterals

inductive NumberKind
  | integer
  | float
  deriving DecidableEq, Repr

inductive LexemeKind
  | lineComment
  | blockComment
  | string
  | identifier
  | number (kind : NumberKind)
  | other
  deriving DecidableEq, Repr

structure Lexeme where
  kind : LexemeKind
  text : Text
  deriving DecidableEq, Repr

namespace Lexeme

abbrev Cut := Text × Text

def onto (c : Char) (cut : Cut) : Cut := (c :: cut.1, cut.2)

def blockBody : Nat → Text → Cut
  | 0, source => ([], source)
  | _ + 1, [] => ([], [])
  | depth + 1, '/' :: '*' :: rest => onto '/' (onto '*' (blockBody (depth + 2) rest))
  | depth + 1, '*' :: '/' :: rest => onto '*' (onto '/' (blockBody depth rest))
  | depth + 1, c :: rest => onto c (blockBody (depth + 1) rest)

def stringBody (quote : Char) : Text → Cut
  | [] => ([], [])
  | '\\' :: c :: rest => onto '\\' (onto c (stringBody quote rest))
  | c :: rest => if c = quote then ([c], rest) else onto c (stringBody quote rest)

def run (p : Char → Bool) (source : Text) : Cut := (source.takeWhile p, source.dropWhile p)

def startsWithDigit : Text → Bool
  | [] => false
  | c :: _ => isDigit c

def fraction? : Text → Option Cut
  | '.' :: rest => if startsWithDigit rest then some (onto '.' (run isWordChar rest)) else none
  | _ => none

def signedExponent? (text : Text) : Text → Option Cut
  | c :: rest =>
    if text.getLast?.any isExponentMark && isSign c && startsWithDigit rest then
      some (onto c (run isWordChar rest))
    else none
  | [] => none

/-- Decimal characters with an exponent behind them: an exponent mark, separators, a digit, and
decimal characters to the end. -/
def hasExponent (text : Text) : Bool :=
  match text.dropWhile isDecimalChar with
  | [] => false
  | c :: rest =>
    let digits := rest.dropWhile (· = '_')
    isExponentMark c && startsWithDigit digits && digits.all isDecimalChar

def endsAtExponentMark (text : Text) : Bool :=
  match text.dropWhile isDecimalChar with
  | [c] => isExponentMark c
  | _ => false

/-- A number from its first run of literal characters on. A marked radix takes one fraction along
and stays an integer; a decimal number with a fraction or an exponent is a float. -/
def numberFrom (head rest : Text) : NumberKind × Cut :=
  if (Radix.detect head).1 ≠ .decimal then
    match fraction? rest with
    | some (fraction, rest) => (.integer, head ++ fraction, rest)
    | none => (.integer, head, rest)
  else
    match fraction? rest with
    | some (fraction, rest) =>
      match signedExponent? (head ++ fraction) rest with
      | some (exponent, rest) => (.float, head ++ fraction ++ exponent, rest)
      | none => (.float, head ++ fraction, rest)
    | none =>
      if hasExponent head then (.float, head, rest)
      else if endsAtExponentMark head then
        match signedExponent? head rest with
        | some (exponent, rest) => (.float, head ++ exponent, rest)
        | none => (.integer, head, rest)
      else (.integer, head, rest)

def number (source : Text) : NumberKind × Cut :=
  numberFrom (source.takeWhile isWordChar) (source.dropWhile isWordChar)

def ofCut (kind : LexemeKind) (cut : Cut) : Lexeme × Text := (⟨kind, cut.1⟩, cut.2)

def first (c : Char) (rest : Text) : Lexeme × Text :=
  if c = '/' && rest.head? = some '/' then ofCut .lineComment (run (· ≠ '\n') (c :: rest))
  else if c = '/' && rest.head? = some '*' then
    ofCut .blockComment (onto '/' (onto '*' (blockBody 1 rest.tail)))
  else if isQuote c then ofCut .string (onto c (stringBody c rest))
  else if startsIdentifier c then ofCut .identifier (run isWordChar (c :: rest))
  else if isDigit c then
    let (kind, cut) := number (c :: rest)
    ofCut (.number kind) cut
  else (⟨.other, [c]⟩, rest)

theorem blockBody_append (depth : Nat) (source : Text) :
    (blockBody depth source).1 ++ (blockBody depth source).2 = source := by
  fun_induction blockBody depth source <;> simp_all [onto]

theorem stringBody_append (quote : Char) (source : Text) :
    (stringBody quote source).1 ++ (stringBody quote source).2 = source := by
  fun_induction stringBody quote source <;> simp_all [onto]

theorem run_append (p : Char → Bool) (source : Text) :
    (run p source).1 ++ (run p source).2 = source :=
  List.takeWhile_append_dropWhile

theorem fraction?_append {source : Text} {cut : Cut} (h : fraction? source = some cut) :
    cut.1 ++ cut.2 = source := by
  unfold fraction? at h
  split at h
  · split at h
    · obtain rfl := Option.some.inj h
      simp [onto, run_append]
    · contradiction
  · contradiction

theorem signedExponent?_append {text source : Text} {cut : Cut}
    (h : signedExponent? text source = some cut) : cut.1 ++ cut.2 = source := by
  unfold signedExponent? at h
  split at h
  · split at h
    · obtain rfl := Option.some.inj h
      simp [onto, run_append]
    · contradiction
  · contradiction

theorem numberFrom_append (head rest : Text) :
    (numberFrom head rest).2.1 ++ (numberFrom head rest).2.2 = head ++ rest := by
  unfold numberFrom
  split
  · split
    · next h => simp [← fraction?_append h]
    · rfl
  · split
    · next h =>
      split
      · next h' => simp [← fraction?_append h, ← signedExponent?_append h']
      · simp [← fraction?_append h]
    · split
      · rfl
      · split
        · split
          · next h => simp [← signedExponent?_append h]
          · rfl
        · rfl

theorem number_append (source : Text) : (number source).2.1 ++ (number source).2.2 = source := by
  simp [number, numberFrom_append, List.takeWhile_append_dropWhile]

theorem first_append (c : Char) (rest : Text) :
    (first c rest).1.text ++ (first c rest).2 = c :: rest := by
  unfold first
  split
  · exact run_append _ _
  · split
    · next h =>
      obtain ⟨_, h⟩ : c = '/' ∧ rest.head? = some '*' := by simpa using h
      cases rest with
      | nil => simp at h
      | cons d rest => simp_all [ofCut, onto, blockBody_append]
    · split
      · simp [ofCut, onto, stringBody_append]
      · split
        · exact run_append _ _
        · split
          · exact number_append _
          · rfl

theorem numberFrom_ne_nil {head : Text} (rest : Text) (h : head ≠ []) :
    (numberFrom head rest).2.1 ≠ [] := by
  unfold numberFrom
  split
  · split <;> simp [h]
  · split
    · split <;> simp [h]
    · split
      · exact h
      · split
        · split <;> simp [h]
        · exact h

theorem first_ne_nil (c : Char) (rest : Text) : (first c rest).1.text ≠ [] := by
  unfold first
  split
  · next h =>
    obtain ⟨rfl, _⟩ : c = '/' ∧ rest.head? = some '/' := by simpa using h
    simp [ofCut, run]
  · split
    · simp [ofCut, onto]
    · split
      · simp [ofCut, onto]
      · split
        · next h => simp [ofCut, run, isWordChar, h]
        · split
          · next h =>
            exact numberFrom_ne_nil _ (by simp [isWordChar, h])
          · simp

theorem first_length_lt (c : Char) (rest : Text) :
    (first c rest).2.length < (c :: rest).length := by
  have h := congrArg List.length (first_append c rest)
  have := List.length_pos_iff.mpr (first_ne_nil c rest)
  rw [List.length_append] at h
  omega

end Lexeme

def lexemes : Text → List Lexeme
  | [] => []
  | c :: rest => (Lexeme.first c rest).1 :: lexemes (Lexeme.first c rest).2
termination_by source => source.length
decreasing_by exact Lexeme.first_length_lt c rest

theorem lexemes_flatten (source : Text) : ((lexemes source).map Lexeme.text).flatten = source := by
  fun_induction lexemes source with
  | case1 => rfl
  | case2 c rest ih => rw [List.map_cons, List.flatten_cons, ih, Lexeme.first_append]

theorem text_ne_nil_of_mem_lexemes {source : Text} {lexeme : Lexeme} (h : lexeme ∈ lexemes source) :
    lexeme.text ≠ [] := by
  fun_induction lexemes source with
  | case1 => simp at h
  | case2 c rest ih =>
    rcases List.mem_cons.mp h with rfl | h
    · exact Lexeme.first_ne_nil c rest
    · exact ih h

end ScriptLiterals
