import ScriptLiterals.Proofs.Source.Tokens
import ScriptLiterals.Proofs.Text.Decimal
import ScriptLiterals.Proofs.Text.Lines
import ScriptLiterals.Source.Listing

/-!
Reading a listing of tokens back, without the script. A text in quotes may hold anything, blanks and
further quotes as well; that each line can be taken apart rests on what numbers are made of.

Main statements: `Listed.ofLine?_listingLine` for a line, `Listed.listTokens_reads_back` for a listing.
-/

namespace ScriptLiterals

def Position.listing (p : Position) : Text := Text.ofInt p.line ++ ':' :: Text.ofInt p.column

def Token.listingLine (token : Token) : Text :=
  token.kind.name ++ ' ' :: token.span.listing ++ ' ' :: Text.quoted token.text

structure Listed where
  kind : TokenKind
  start : Int × Int
  stop : Int × Int
  text : Text
  deriving DecidableEq, Repr

def Token.listed (token : Token) : Listed :=
  ⟨token.kind, (token.span.start.line, token.span.start.column),
    (token.span.stop.line, token.span.stop.column), token.text⟩

namespace Listed

def kind? (name : Text) : Option TokenKind :=
  [TokenKind.integer, .float, .endOfSource].find? fun kind => kind.name = name

def place? (text : Text) : Option (Int × Int) :=
  match text.splitOn ':' with
  | [line, column] => do
    return (← Text.integerOfDecimal? line, ← Text.integerOfDecimal? column)
  | _ => none

def unquoted? : Text → Option Text
  | '\x27' :: text => if text.getLast? = some '\x27' then some text.dropLast else none
  | _ => none

def ofLine? (line : Text) : Option Listed :=
  match line.splitOn ' ' with
  | [kind, span, text] =>
    match span.splitOn '-' with
    | [start, stop] => do
      return ⟨← kind? kind, ← place? start, ← place? stop, ← unquoted? text⟩
    | _ => none
  | _ => none

def ofListing? (listing : Text) : Option (List Listed) :=
  let lines := listing.splitOn '\n'
  if lines.getLast? = some [] then lines.dropLast.mapM ofLine? else none

end Listed

/-- A token that a script can have: it stands behind the start of the script, and its text is made of
the characters of numbers. -/
structure Token.IsListable (token : Token) : Prop where
  characters : ∀ c ∈ token.text, isNumberChar c = true
  start : 0 ≤ token.span.start.line ∧ 0 ≤ token.span.start.column
  stop : 0 ≤ token.span.stop.line ∧ 0 ≤ token.span.stop.column

namespace Text

theorem escaped_of_isNumberChar {c : Char} (character : isNumberChar c = true) :
    escaped '\x27' c = [c] := by
  have different : ∀ {d : Char}, isNumberChar d = false → c ≠ d := by
    rintro d other rfl
    rw [character] at other
    contradiction
  have printable : isPrintable c = true := by
    have code := toNat_of_isNumberChar character
    rw [isPrintable, if_pos (by omega), decide_eq_true_eq]
    omega
  have kept : (c = '\x27' || c = '\\') = false := by
    simp [different (d := '\x27') (by decide), different (d := '\\') (by decide)]
  rw [escaped, kept, if_neg Bool.false_ne_true, if_neg (different (by decide)),
    if_neg (different (by decide)), if_neg (different (by decide)), if_pos printable]

theorem quoted_of_isNumberChar {text : Text} (characters : ∀ c ∈ text, isNumberChar c = true) :
    quoted text = '\x27' :: (text ++ ['\x27']) := by
  have noQuote : '\x27' ∉ text := by
    intro quote
    exact absurd (characters _ quote) (by decide)
  have quote : quoteFor text = '\x27' := by simp [quoteFor, noQuote]
  have unchanged : text.flatMap (escaped '\x27') = text := by
    calc
      _ = text.flatMap ([·]) := List.flatMap_congr fun c member =>
        escaped_of_isNumberChar (characters c member)
      _ = text := List.flatMap_singleton' text
  rw [quoted, quote, unchanged]
  rfl

end Text

namespace Token

variable {source : Text} {token : Token}

theorem isListable_of_mem (member : token ∈ ofSource source) : token.IsListable := by
  have exact : token.IsExact source := (ofSource_exact source).1 token member
  rcases exact.slice with ⟨first, last, start, stop, -⟩
  have start := start.one_le
  have stop := stop.one_le
  refine ⟨?_, by omega, by omega⟩
  rw [ofSource_eq, List.mem_append, List.mem_singleton] at member
  rcases member with member | rfl
  · rcases mem_ofLexemes_lexemes member with ⟨_, _, _, -, number, -⟩
    exact number.characters
  · simp [endAt]

end Token

namespace Listed

variable {token : Token} {tokens : List Token}

theorem kind?_name (kind : TokenKind) : kind? kind.name = some kind := by
  cases kind <;> decide

theorem place?_listing (p : Position) : place? p.listing = some (p.line, p.column) := by
  simp [place?, Position.listing, Text.splitOn_colon_ofInt, Text.integerOfDecimal?_ofInt]

theorem unquoted?_quoted (listable : token.IsListable) :
    unquoted? (Text.quoted token.text) = some token.text := by
  rw [Text.quoted_of_isNumberChar listable.characters]
  simp [unquoted?]

theorem minus_not_mem_ofInt {n : Int} (nonneg : 0 ≤ n) : '-' ∉ Text.ofInt n := by
  rcases Int.eq_ofNat_of_zero_le nonneg with ⟨n, rfl⟩
  intro minus
  have digit : isDigit '-' = true := isDigit_of_mem_ofNat minus
  exact absurd digit (by decide)

theorem minus_not_mem_listing {p : Position} (inside : 0 ≤ p.line ∧ 0 ≤ p.column) :
    '-' ∉ p.listing := by
  apply List.not_mem_append
  · exact minus_not_mem_ofInt inside.1
  · simpa using minus_not_mem_ofInt inside.2

theorem splitOn_span_listing (listable : token.IsListable) :
    token.span.listing.splitOn '-' = [token.span.start.listing, token.span.stop.listing] := by
  have joined : token.span.listing = token.span.start.listing ++ '-' :: token.span.stop.listing := by
    simp [Span.listing, Position.listing]
  rw [joined, List.splitOn_append_cons_self_of_not_mem (minus_not_mem_listing listable.start),
    List.splitOn_eq_singleton (minus_not_mem_listing listable.stop)]

theorem mem_span_listing {span : Span} {c : Char} (member : c ∈ span.listing) :
    isNumberChar c = true ∨ c = ':' := by
  have number := fun (n : Int) (inside : c ∈ Text.ofInt n) => isNumberChar_of_mem_ofInt inside
  simp only [Span.listing, List.mem_append, List.mem_cons] at member
  rcases member with ((inside | rfl | inside) | rfl | inside) | rfl | inside
  · exact .inl (number _ inside)
  · exact .inr rfl
  · exact .inl (number _ inside)
  · exact .inl rfl
  · exact .inl (number _ inside)
  · exact .inr rfl
  · exact .inl (number _ inside)

theorem isWordChar_of_mem_name {kind : TokenKind} {c : Char} (member : c ∈ kind.name) :
    isWordChar c = true := by
  have table : kind.name.all isWordChar = true := by cases kind <;> decide
  exact List.all_eq_true.mp table c member

theorem splitOn_listingLine (listable : token.IsListable) :
    token.listingLine.splitOn ' ' = [token.kind.name, token.span.listing, Text.quoted token.text] := by
  have name : ' ' ∉ token.kind.name := by
    intro blank
    exact absurd (isWordChar_of_mem_name blank) (by decide)
  have span : ' ' ∉ token.span.listing := by
    intro blank
    rcases mem_span_listing blank with number | colon
    · exact absurd number (by decide)
    · exact absurd colon (by decide)
  have text : ' ' ∉ Text.quoted token.text := by
    rw [Text.quoted_of_isNumberChar listable.characters]
    intro blank
    have inside : ' ' ∈ token.text := by simpa using blank
    exact absurd (listable.characters _ inside) (by decide)
  rw [Token.listingLine, List.append_assoc, List.cons_append,
    List.splitOn_append_cons_self_of_not_mem name, List.splitOn_append_cons_self_of_not_mem span,
    List.splitOn_eq_singleton text]

theorem ofLine?_listingLine (listable : token.IsListable) :
    ofLine? token.listingLine = some token.listed := by
  simp [ofLine?, splitOn_listingLine listable, splitOn_span_listing listable, kind?_name,
    place?_listing, unquoted?_quoted listable, Token.listed]

theorem not_isLineEnd_of_mem_listingLine (listable : token.IsListable) :
    ∀ c ∈ token.listingLine, Text.isLineEnd c = false := by
  intro c member
  rw [Token.listingLine, Text.quoted_of_isNumberChar listable.characters] at member
  simp only [List.mem_append, List.mem_cons, List.not_mem_nil, or_false] at member
  rcases member with (name | rfl | span) | rfl | rfl | inside | rfl
  · exact isLineEnd_of_isNumberChar (isNumberChar_of_isWordChar (isWordChar_of_mem_name name))
  · decide
  · rcases mem_span_listing span with number | rfl
    · exact isLineEnd_of_isNumberChar number
    · decide
  · decide
  · decide
  · exact isLineEnd_of_isNumberChar (listable.characters c inside)
  · decide

theorem listTokens_eq (tokens : List Token) :
    listTokens tokens = Text.unlines (tokens.map Token.listingLine) := by
  rw [listTokens, Text.unlines, List.flatMap_map]
  rfl

theorem splitOn_listTokens (listable : ∀ token ∈ tokens, token.IsListable) :
    (listTokens tokens).splitOn '\n' = tokens.map Token.listingLine ++ [[]] := by
  have oneLine : ∀ line ∈ tokens.map Token.listingLine, '\n' ∉ line := by
    intro line member
    rcases List.mem_map.mp member with ⟨token, present, rfl⟩
    intro feed
    exact absurd (not_isLineEnd_of_mem_listingLine (listable token present) _ feed) (by decide)
  have split := Text.splitOn_unlines oneLine []
  rwa [List.append_nil, ← listTokens_eq] at split

theorem mapM_ofLine? (listable : ∀ token ∈ tokens, token.IsListable) :
    (tokens.map Token.listingLine).mapM ofLine? = some (tokens.map Token.listed) := by
  induction tokens with
  | nil => rfl
  | cons token tokens ih =>
    rcases List.forall_mem_cons.mp listable with ⟨first, others⟩
    simp [ofLine?_listingLine first, ih others]

theorem ofListing?_listTokens (listable : ∀ token ∈ tokens, token.IsListable) :
    ofListing? (listTokens tokens) = some (tokens.map Token.listed) := by
  simp [ofListing?, splitOn_listTokens listable, mapM_ofLine? listable]

/-- The listing of a script has one line for each token, in their order. The quotes hold the text of the
token itself, no line holds a line end of any kind, and what a listing tells of the tokens can be read
from it without the script. -/
theorem listTokens_reads_back (source : Text) :
    let tokens := Token.ofSource source
    (listTokens tokens).splitOn '\n' = tokens.map Token.listingLine ++ [[]] ∧
      (∀ token ∈ tokens, Text.quoted token.text = '\x27' :: (token.text ++ ['\x27']) ∧
        (∀ c ∈ token.listingLine, Text.isLineEnd c = false) ∧
        ofLine? token.listingLine = some token.listed) ∧
      ofListing? (listTokens tokens) = some (tokens.map Token.listed) := by
  intro tokens
  have listable : ∀ token ∈ tokens, token.IsListable := by
    intro token member
    exact Token.isListable_of_mem member
  refine ⟨splitOn_listTokens listable, ?_, ofListing?_listTokens listable⟩
  intro token member
  have plain := listable token member
  exact ⟨Text.quoted_of_isNumberChar plain.characters, not_isLineEnd_of_mem_listingLine plain,
    ofLine?_listingLine plain⟩

end Listed
end ScriptLiterals
