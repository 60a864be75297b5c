import ScriptLiterals.Proofs.Literal.Grammar
import ScriptLiterals.Source.Lexeme

/-!
The regions of a script, said without cutting one. Each predicate relates the text of a region to all
that follows it, since the end of a region often shows only in what comes next.
-/

namespace ScriptLiterals

def IsRun (p : Char → Bool) (text rest : Text) : Prop :=
  (∀ c ∈ text, p c) ∧ ∀ c ∈ rest.head?, ¬ p c

def IsLineComment (text rest : Text) : Prop :=
  ∃ content, text = '/' :: '/' :: content ∧ '\n' ∉ content ∧
    (rest = [] ∨ ∃ more, rest = '\n' :: more)

inductive CommentPart
  | opening
  | closing
  | other (c : Char)
  deriving DecidableEq, Repr

namespace CommentPart

def text : CommentPart → Text
  | opening => ['/', '*']
  | closing => ['*', '/']
  | other c => [c]

def change : CommentPart → Int
  | opening => 1
  | closing => -1
  | other _ => 0

def ofText : Text → List CommentPart
  | [] => []
  | '/' :: '*' :: rest => opening :: ofText rest
  | '*' :: '/' :: rest => closing :: ofText rest
  | c :: rest => other c :: ofText rest

def depth (parts : List CommentPart) : Int := (parts.map change).sum

end CommentPart

/-- The parts from an opening mark up to the first at which the depth is zero again, or up to the end
if there is none. -/
def IsBlockComment (text rest : Text) : Prop :=
  ∃ inside behind, CommentPart.ofText (text ++ rest) = inside ++ behind ∧
    text = inside.flatMap CommentPart.text ∧ rest = behind.flatMap CommentPart.text ∧
    inside.head? = some .opening ∧
    (∀ n, 0 < n → n < inside.length → 0 < CommentPart.depth (inside.take n)) ∧
    (CommentPart.depth inside = 0 ∨ behind = [] ∧ 0 < CommentPart.depth inside)

inductive Enclosed (quote : Char) : Text → Prop
  | nil : Enclosed quote []
  | hidden (c : Char) {more : Text} (enclosed : Enclosed quote more) :
      Enclosed quote ('\\' :: c :: more)
  | plain {c : Char} {more : Text} (bare : c ≠ '\\') (inner : c ≠ quote)
      (enclosed : Enclosed quote more) : Enclosed quote (c :: more)

def IsString (text rest : Text) : Prop :=
  ∃ quote content, isQuote quote ∧ Enclosed quote content ∧
    (text = quote :: (content ++ [quote]) ∨
      rest = [] ∧ (text = quote :: content ∨ text = quote :: (content ++ ['\\'])))

def IsIdentifier (text rest : Text) : Prop :=
  ∃ c more, text = c :: more ∧ startsIdentifier c ∧ IsRun isWordChar text rest

def HasMark (text : Text) : Prop :=
  ∃ radix, ∃ letter ∈ Radix.letters radix, ∃ more, text = '0' :: letter :: more

def IsFraction (text rest : Text) : Prop :=
  ∃ digit more, text = '.' :: digit :: more ∧ isDigit digit ∧ IsRun isWordChar (digit :: more) rest

def BeginsFraction (text : Text) : Prop :=
  ∃ digit more, isDigit digit ∧ text = '.' :: digit :: more

def IsSignedExponent (text rest : Text) : Prop :=
  ∃ sign digit more, text = sign :: digit :: more ∧ isSign sign ∧ isDigit digit ∧
    IsRun isWordChar (digit :: more) rest

def BeginsSignedExponent (text : Text) : Prop :=
  ∃ sign digit more, isSign sign ∧ isDigit digit ∧ text = sign :: digit :: more

def EndsInExponentMark (text : Text) : Prop :=
  ∃ before mark, isExponentMark mark ∧ text = before ++ [mark]

/-- The expression `[0-9_]+[eE]_*[0-9][0-9_]*`. -/
def HasExponent (text : Text) : Prop :=
  ∃ mantissa mark separators digit more,
    text = mantissa ++ mark :: (separators ++ digit :: more) ∧
    mantissa ≠ [] ∧ (∀ c ∈ mantissa, isDecimalChar c) ∧ isExponentMark mark ∧
    (∀ c ∈ separators, c = '_') ∧ isDigit digit ∧ ∀ c ∈ more, isDecimalChar c

def EndsAtExponent (text : Text) : Prop :=
  ∃ mantissa mark, text = mantissa ++ [mark] ∧ mantissa ≠ [] ∧
    (∀ c ∈ mantissa, isDecimalChar c) ∧ isExponentMark mark

/-- How a number goes on behind its first run of word characters, the `head`. -/
inductive NumberEnd (head : Text) : NumberKind → Text → Text → Prop
  | marked {rest : Text} (mark : HasMark head) (noFraction : ¬ BeginsFraction rest) :
      NumberEnd head .integer [] rest
  | markedFraction {fraction rest : Text} (mark : HasMark head)
      (isFraction : IsFraction fraction rest) : NumberEnd head .integer fraction rest
  | fraction {fraction rest : Text} (noMark : ¬ HasMark head)
      (isFraction : IsFraction fraction rest)
      (noExponent : ¬ (EndsInExponentMark fraction ∧ BeginsSignedExponent rest)) :
      NumberEnd head .float fraction rest
  | fractionExponent {fraction exponent rest : Text} (noMark : ¬ HasMark head)
      (isFraction : IsFraction fraction (exponent ++ rest))
      (ends : EndsInExponentMark fraction) (isExponent : IsSignedExponent exponent rest) :
      NumberEnd head .float (fraction ++ exponent) rest
  | exponent {rest : Text} (noMark : ¬ HasMark head) (noFraction : ¬ BeginsFraction rest)
      (hasExponent : HasExponent head) : NumberEnd head .float [] rest
  | signedExponent {exponent rest : Text} (noMark : ¬ HasMark head) (ends : EndsAtExponent head)
      (isExponent : IsSignedExponent exponent rest) : NumberEnd head .float exponent rest
  | plain {rest : Text} (noMark : ¬ HasMark head) (noFraction : ¬ BeginsFraction rest)
      (noExponent : ¬ HasExponent head)
      (noSignedExponent : ¬ (EndsAtExponent head ∧ BeginsSignedExponent rest)) :
      NumberEnd head .integer [] rest

def IsNumber (kind : NumberKind) (text rest : Text) : Prop :=
  ∃ digit more tail, text = digit :: more ++ tail ∧ isDigit digit ∧
    IsRun isWordChar (digit :: more) (tail ++ rest) ∧ NumberEnd (digit :: more) kind tail rest

def IsOther (text rest : Text) : Prop :=
  ∃ c, text = [c] ∧ ¬ isQuote c ∧ ¬ isWordChar c ∧
    ¬ (c = '/' ∧ (rest.head? = some '/' ∨ rest.head? = some '*'))

def Lexeme.IsRegion (lexeme : Lexeme) (rest : Text) : Prop :=
  match lexeme.kind with
  | .lineComment => IsLineComment lexeme.text rest
  | .blockComment => IsBlockComment lexeme.text rest
  | .string => IsString lexeme.text rest
  | .identifier => IsIdentifier lexeme.text rest
  | .number kind => IsNumber kind lexeme.text rest
  | .other => IsOther lexeme.text rest

def Lexeme.joinedText (cut : List Lexeme) : Text := (cut.map Lexeme.text).flatten

/-- A script cut into regions, each of them at the front of what the ones before leave. -/
inductive IsCutInto : Text → List Lexeme → Prop
  | nil : IsCutInto [] []
  | cons {lexeme : Lexeme} {rest : Text} {more : List Lexeme} (region : lexeme.IsRegion rest)
      (cut : IsCutInto rest more) : IsCutInto (lexeme.text ++ rest) (lexeme :: more)

end ScriptLiterals
