import ScriptLiterals.Toml.Error

/-!
The smallest parts of a TOML document: blanks, comments, strings and keys. A rule reads from the
front of a text and returns what it has read and the rest, which is shorter by at least what the
rule's type says.
-/

namespace ScriptLiterals.Toml

/-- What a rule has read, and fewer than `n` characters behind it. -/
structure Parsed (α : Type) (n : Nat) where
  value : α
  rest : Text
  length_lt : rest.length < n

abbrev Reads (α : Type) (n : Nat) := Except Failure (Parsed α n)

namespace Parsed

def map {α β : Type} {n : Nat} (f : α → β) (p : Parsed α n) : Parsed β n :=
  ⟨f p.value, p.rest, p.length_lt⟩

def weaken {α : Type} {m n : Nat} (h : m ≤ n) (p : Parsed α m) : Parsed α n :=
  ⟨p.value, p.rest, Nat.lt_of_lt_of_le p.length_lt h⟩

end Parsed

def isBlank (c : Char) : Bool := c = ' ' || c = '\t'

def isBlankOrNewline (c : Char) : Bool := isBlank c || c = '\n'

def isControl (c : Char) : Bool := (c < ' ' && c ≠ '\t') || c = '\x7f'

def isControlOnLines (c : Char) : Bool := isControl c && c ≠ '\n'

def isHexDigit (c : Char) : Bool :=
  ('0' ≤ c && c ≤ '9') || ('a' ≤ c && c ≤ 'f') || ('A' ≤ c && c ≤ 'F')

def isBareKeyChar (c : Char) : Bool :=
  ('a' ≤ c && c ≤ 'z') || ('A' ≤ c && c ≤ 'Z') || ('0' ≤ c && c ≤ '9') || c = '-' || c = '_'

theorem length_dropWhile_le (p : Char → Bool) (source : Text) :
    (source.dropWhile p).length ≤ source.length :=
  (List.dropWhile_suffix p).length_le

def skipBlanks (source : Text) : Text := source.dropWhile isBlank

theorem skipBlanks_length_le (source : Text) : (skipBlanks source).length ≤ source.length :=
  length_dropWhile_le _ _

def comment (source : Text) : Reads Unit (source.length + 1) :=
  match (source.takeWhile (· ≠ '\n')).find? isControl with
  | some c => .error ⟨.invalidCharacter c, source.dropWhile fun c => !isControl c⟩
  | none =>
    .ok ⟨(), source.dropWhile (· ≠ '\n'), Nat.lt_succ_of_le (length_dropWhile_le (· ≠ '\n') source)⟩

def skipComment (source : Text) : Reads Unit (source.length + 1) :=
  match source with
  | '#' :: rest => (comment rest).map (Parsed.weaken (Nat.le_succ _))
  | source => .ok ⟨(), source, Nat.lt_succ_self _⟩

def skipToItem (source : Text) : Reads Unit (source.length + 1) :=
  have := length_dropWhile_le isBlankOrNewline source
  match h : source.dropWhile isBlankOrNewline with
  | '#' :: rest =>
    have : rest.length + 1 ≤ source.length := by rw [h] at this; exact this
    match comment rest with
    | .error e => .error e
    | .ok skipped =>
      have := skipped.length_lt
      (skipToItem skipped.rest).map (Parsed.weaken (by omega))
  | rest => .ok ⟨(), rest, by rw [h] at this; omega⟩
termination_by source.length
decreasing_by omega

def splitAt? (delimiter : Text) : Text → Option (Text × Text)
  | [] => none
  | c :: rest =>
    if delimiter.isPrefixOf (c :: rest) then some ([], (c :: rest).drop delimiter.length)
    else (splitAt? delimiter rest).map fun (before, after) => (c :: before, after)

theorem splitAt?_length_le {delimiter source before after : Text}
    (h : splitAt? delimiter source = some (before, after)) : after.length ≤ source.length := by
  induction source generalizing before with
  | nil => simp [splitAt?] at h
  | cons c rest ih =>
    rw [splitAt?] at h
    split at h
    · obtain ⟨_, rfl⟩ := Prod.mk.inj (Option.some.inj h)
      simp
    · obtain ⟨⟨before', after'⟩, hs, he⟩ := Option.map_eq_some_iff.mp h
      obtain ⟨_, rfl⟩ := Prod.mk.inj he
      exact Nat.le_succ_of_le (ih hs)

def rawString (delimiter : Text) (isIllegal : Char → Bool) (source : Text) :
    Reads Text (source.length + 1) :=
  match h : splitAt? delimiter source with
  | none => .error ⟨.expected delimiter, []⟩
  | some (content, rest) =>
    match content.find? isIllegal with
    | some c => .error ⟨.invalidCharacter c, source.dropWhile fun c => !isIllegal c⟩
    | none => .ok ⟨content, rest, Nat.lt_succ_of_le (splitAt?_length_le h)⟩

def ofHex (digits : Text) : Nat :=
  digits.foldl (fun value c => value * 16 + (if c ≤ '9' then c.toNat - 48 else c.toNat % 32 + 9)) 0

def hexCharacter (count : Nat) (source : Text) : Reads Text (source.length + 1) :=
  let digits := source.take count
  if digits.length = count ∧ digits.all isHexDigit then
    if h : (ofHex digits).isValidChar then
      .ok ⟨[Char.ofNatAux (ofHex digits) h], source.drop count, by rw [List.length_drop]; omega⟩
    else .error ⟨.notScalarValue, source.drop count⟩
  else .error ⟨.invalidHexValue, source⟩

def escape? (c : Char) : Option Char :=
  if c = 'b' then some '\x08'
  else if c = 't' then some '\t'
  else if c = 'n' then some '\n'
  else if c = 'f' then some '\x0c'
  else if c = 'r' then some '\r'
  else if c = '\x22' then some '\x22'
  else if c = '\\' then some '\\'
  else none

def lineContinuation (source : Text) : Reads Text (source.length + 1) :=
  match h : skipBlanks source with
  | [] => .ok ⟨[], [], Nat.succ_pos _⟩
  | '\n' :: rest =>
    .ok ⟨[], rest.dropWhile isBlankOrNewline, by
      have := length_dropWhile_le isBlankOrNewline rest
      have h := h ▸ skipBlanks_length_le source
      simp only [List.length_cons] at h
      omega⟩
  | rest => .error ⟨.unescapedBackslash, rest⟩

def escapeSequence (onLines : Bool) (source : Text) : Reads Text source.length :=
  match source with
  | [] => .error ⟨.unescapedBackslash, []⟩
  | c :: rest =>
    if onLines && c = '\n' then
      .ok ⟨[], rest.dropWhile isBlankOrNewline,
        Nat.lt_succ_of_le (length_dropWhile_le isBlankOrNewline rest)⟩
    else if onLines && isBlank c then lineContinuation rest
    else if c = 'u' then hexCharacter 4 rest
    else if c = 'U' then hexCharacter 8 rest
    else
      match escape? c with
      | some c => .ok ⟨[c], rest, Nat.lt_succ_self _⟩
      | none => .error ⟨.unescapedBackslash, rest⟩

def basicString (onLines : Bool) (source : Text) : Reads Text (source.length + 1) :=
  match source with
  | [] => .error ⟨.unterminatedString, []⟩
  | c :: rest =>
    if c = '\x22' then
      if onLines then
        match rest with
        | '\x22' :: '\x22' :: after => .ok ⟨[], after, by simp only [List.length_cons]; omega⟩
        | rest => (basicString onLines rest).map fun p => (p.weaken (by simp)).map (c :: ·)
      else .ok ⟨[], rest, by simp only [List.length_cons]; omega⟩
    else if c = '\\' then
      match escapeSequence onLines rest with
      | .error e => .error e
      | .ok escaped =>
        have := escaped.length_lt
        (basicString onLines escaped.rest).map fun p =>
          (p.weaken (by simp only [List.length_cons]; omega)).map (escaped.value ++ ·)
    else if (if onLines then isControlOnLines c else isControl c) then
      .error ⟨.illegalCharacter c, c :: rest⟩
    else (basicString onLines rest).map fun p => (p.weaken (by simp)).map (c :: ·)
termination_by source.length
decreasing_by all_goals simp_all <;> omega

/-- A string on several lines may end in one or two quotes directly before its delimiter. -/
def withExtraQuotes (quote : Char) {n : Nat} (p : Parsed Text n) : Parsed Text n :=
  match h : p.rest with
  | c :: d :: rest =>
    if c = quote then
      if d = quote then
        ⟨p.value ++ [quote, quote], rest, by
          have := h ▸ p.length_lt
          simp only [List.length_cons] at this
          omega⟩
      else
        ⟨p.value ++ [quote], d :: rest, by
          have := h ▸ p.length_lt
          simp only [List.length_cons] at this ⊢
          omega⟩
    else p
  | [c] => if c = quote then ⟨p.value ++ [quote], [], Nat.zero_lt_of_lt p.length_lt⟩ else p
  | [] => p

def skipFirstNewline : Text → Text
  | '\n' :: rest => rest
  | source => source

theorem skipFirstNewline_length_le (source : Text) :
    (skipFirstNewline source).length ≤ source.length := by
  unfold skipFirstNewline
  split <;> simp

def doubleQuoted (source : Text) : Reads Text (source.length + 1) :=
  match source with
  | '\x22' :: '\x22' :: rest =>
    have := skipFirstNewline_length_le rest
    (basicString true (skipFirstNewline rest)).map fun p =>
      withExtraQuotes '\x22' (p.weaken (by simp only [List.length_cons]; omega))
  | source => basicString false source

def singleQuoted (source : Text) : Reads Text (source.length + 1) :=
  match source with
  | '\x27' :: '\x27' :: rest =>
    have := skipFirstNewline_length_le rest
    (rawString ['\x27', '\x27', '\x27'] isControlOnLines (skipFirstNewline rest)).map fun p =>
      withExtraQuotes '\x27' (p.weaken (by simp only [List.length_cons]; omega))
  | source => rawString ['\x27'] isControl source

def keyPart (source : Text) : Reads Text source.length :=
  match source with
  | [] => .error ⟨.invalidKeyStart, []⟩
  | c :: rest =>
    if isBareKeyChar c then
      .ok ⟨c :: rest.takeWhile isBareKeyChar, rest.dropWhile isBareKeyChar,
        Nat.lt_succ_of_le (length_dropWhile_le isBareKeyChar rest)⟩
    else if c = '\x27' then rawString ['\x27'] isControl rest
    else if c = '\x22' then basicString false rest
    else .error ⟨.invalidKeyStart, c :: rest⟩

def key (source : Text) : Reads Key source.length :=
  match keyPart source with
  | .error e => .error e
  | .ok part =>
    have := part.length_lt
    have := skipBlanks_length_le part.rest
    match h : skipBlanks part.rest with
    | '.' :: rest =>
      have hr : rest.length + 1 = (skipBlanks part.rest).length := by rw [h]; rfl
      have := skipBlanks_length_le rest
      (key (skipBlanks rest)).map fun more =>
        (more.weaken (by omega)).map (part.value :: ·)
    | rest =>
      have hr : rest.length = (skipBlanks part.rest).length := by rw [h]
      .ok ⟨[part.value], rest, by omega⟩
termination_by source.length
decreasing_by omega

end ScriptLiterals.Toml
