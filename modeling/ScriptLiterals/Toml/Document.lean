import ScriptLiterals.Text.Utf8
import ScriptLiterals.Toml.Scalar

/-!
TOML documents: values with parts, and the statements that fill the tables. A table that was opened
by its header, or by dotted keys of an earlier section, may not be opened again, and nothing may be
added to an array or a table that was written as a value.
-/

namespace ScriptLiterals.Toml

def isWithin (keys : List Key) (key : Key) : Bool := keys.any (·.isPrefixOf key)

def Value.isClosed : Value → Bool
  | .array _ => true
  | .table _ => true
  | _ => false

/-- How many rules may be open when a pair is read. A thousand calls may be open in all, and the way to
a pair takes eight of them. -/
def maxOpenRules : Nat := 992

mutual

/-- A value and nothing behind it. This and the rules below are given the number of rules that may
still be opened: an array takes two for each level, an inline table three. -/
def value (room : Nat) (source : Text) : Reads Value source.length :=
  match room with
  | 0 => .error ⟨.nestedTooDeep, source⟩
  | room + 1 =>
    match source with
    | '\x22' :: rest => (doubleQuoted rest).map (·.map .text)
    | '\x27' :: rest => (singleQuoted rest).map (·.map .text)
    | '[' :: rest => (arrayItems room rest).map fun p => (p.weaken (Nat.le_succ _)).map .array
    | '\x7b' :: rest =>
      have := skipBlanks_length_le rest
      match h : skipBlanks rest with
      | '\x7d' :: after =>
        .ok ⟨.table [], after, by
          rw [h] at this
          simp only [List.length_cons] at this ⊢
          omega⟩
      | _ =>
        (inlineEntries room [] [] (skipBlanks rest)).map fun p =>
          (p.weaken (by simp only [List.length_cons]; omega)).map .table
    | source => scalar source
termination_by (source.length, 0)
decreasing_by
  all_goals simp_wf
  all_goals omega

def arrayItems (room : Nat) (source : Text) : Reads (List Value) source.length :=
  match room with
  | 0 => .error ⟨.nestedTooDeep, source⟩
  | room + 1 =>
    match skipToItem source with
    | .error e => .error e
    | .ok start =>
      have hs := start.length_lt
      match h : start.rest with
      | ']' :: rest =>
        .ok ⟨[], rest, by
          rw [h] at hs
          simp only [List.length_cons] at hs
          omega⟩
      | item =>
        match value room item with
        | .error e => .error e
        | .ok first =>
          have hv := first.length_lt
          match skipToItem first.rest with
          | .error e => .error e
          | .ok stop =>
            have ht := stop.length_lt
            match h' : stop.rest with
            | ']' :: rest =>
              .ok ⟨[first.value], rest, by
                rw [h] at hs
                rw [h'] at ht
                simp only [List.length_cons] at ht
                omega⟩
            | ',' :: rest =>
              have : rest.length < source.length := by
                rw [h] at hs
                rw [h'] at ht
                simp only [List.length_cons] at ht
                omega
              (arrayItems (room + 1) rest).map fun p =>
                (p.weaken (Nat.le_of_lt this)).map (first.value :: ·)
            | rest => .error ⟨.unclosedArray, rest⟩
termination_by (source.length, 1)
decreasing_by
  · rw [h] at hs
    simp only [Prod.lex_def]
    omega
  · simp only [Prod.lex_def]
    omega

def pair (room : Nat) (source : Text) : Reads (Key × Value) source.length :=
  match room with
  | 0 => .error ⟨.nestedTooDeep, source⟩
  | room + 1 =>
    match key source with
    | .error e => .error e
    | .ok name =>
      have hn := name.length_lt
      match h : name.rest with
      | '=' :: rest =>
        have : (skipBlanks rest).length < source.length := by
          have := skipBlanks_length_le rest
          rw [h] at hn
          simp only [List.length_cons] at hn
          omega
        (value room (skipBlanks rest)).map fun p =>
          (p.weaken (Nat.le_of_lt this)).map ((name.value, ·))
      | rest => .error ⟨.missingEquals, rest⟩
termination_by (source.length, 1)
decreasing_by
  simp only [Prod.lex_def]
  omega

def inlineEntries (room : Nat) (table : Table) (closed : List Key) (source : Text) :
    Reads Table source.length :=
  match room with
  | 0 => .error ⟨.nestedTooDeep, source⟩
  | room + 1 =>
    match pair room source with
    | .error e => .error e
    | .ok entry =>
      let (name, content) := entry.value
      have he := entry.length_lt
      if isWithin closed name then .error ⟨.immutableNamespace name, entry.rest⟩
      else
        match Table.update false some name.dropLast table with
        | none => .error ⟨.overwritesValue, entry.rest⟩
        | some table =>
          match Table.update false (Table.add? (name.getLastD []) content) name.dropLast table with
          | none => .error ⟨.duplicateInlineKey (name.getLastD []), entry.rest⟩
          | some table =>
            have hb := skipBlanks_length_le entry.rest
            match h : skipBlanks entry.rest with
            | '\x7d' :: rest =>
              .ok ⟨table, rest, by
                rw [h] at hb
                simp only [List.length_cons] at hb
                omega⟩
            | ',' :: rest =>
              have : (skipBlanks rest).length < source.length := by
                have := skipBlanks_length_le rest
                rw [h] at hb
                simp only [List.length_cons] at hb
                omega
              (inlineEntries (room + 1) table (if content.isClosed then name :: closed else closed)
                (skipBlanks rest)).map (Parsed.weaken (Nat.le_of_lt this))
            | rest => .error ⟨.unclosedInlineTable, rest⟩
termination_by (source.length, 2)
decreasing_by
  · simp [Prod.lex_def]
  · simp only [Prod.lex_def]
    omega

end

/-- A document as far as it has been read: its tables, the header of the present section, the tables
that may not be opened again, those that the next header adds to them, and the values that were
written with their parts. -/
structure Document where
  root : Table := []
  header : Key := []
  opened : List Key := []
  pending : List Key := []
  closed : List Key := []

namespace Document

def passed (header name : Key) : List Key :=
  (List.range (name.length - 1)).map fun i => header ++ name.take (i + 1)

def define (document : Document) (name : Key) (content : Value) : Except Fault Document :=
  let parent := document.header ++ name.dropLast
  match (passed document.header name).find? (· ∈ document.opened) with
  | some key => .error (.redefinesNamespace key)
  | none =>
    if isWithin document.closed parent then .error (.immutableNamespace parent)
    else
      match Table.update true (Table.add? (name.getLastD []) content) parent document.root with
      | none => .error .overwritesValue
      | some root =>
        .ok { document with
          root := root
          pending := document.pending ++ passed document.header name
          closed := if content.isClosed then (document.header ++ name) :: document.closed
            else document.closed }

def endSection (document : Document) : Document :=
  { document with opened := document.pending ++ document.opened, pending := [] }

def openTable (document : Document) (name : Key) : Except Fault Document :=
  if name ∈ document.opened || isWithin document.closed name then .error (.declaredTwice name)
  else
    match Table.update true some name document.root with
    | none => .error .overwritesValue
    | some root =>
      .ok { document with root := root, header := name, opened := name :: document.opened }

/-- Opens a new last item of an array of tables by its header. All below the array's name is free
again, but the name itself may not be opened as a table. -/
def openItem (document : Document) (name : Key) : Except Fault Document :=
  if isWithin document.closed name then .error (.immutableNamespace name)
  else
    match Table.update true (Table.append? (name.getLastD [])) name.dropLast document.root with
    | none => .error .overwritesValue
    | some root =>
      .ok { document with
        root := root
        header := name
        opened := name :: document.opened.filter fun key => !name.isPrefixOf key
        closed := document.closed.filter fun key => !name.isPrefixOf key }

def itemHeader (document : Document) (source : Text) : Reads Document (source.length + 1) :=
  have hb := skipBlanks_length_le source
  match key (skipBlanks source) with
  | .error e => .error e
  | .ok name =>
    have hn := name.length_lt
    match document.openItem name.value with
    | .error fault => .error ⟨fault, name.rest⟩
    | .ok document =>
      match h : name.rest with
      | ']' :: ']' :: rest =>
        .ok ⟨document, rest, by
          rw [h] at hn
          simp only [List.length_cons] at hn
          omega⟩
      | rest => .error ⟨.unclosedArrayHeader, rest⟩

def tableHeader (document : Document) (source : Text) : Reads Document (source.length + 1) :=
  have hb := skipBlanks_length_le source
  match key (skipBlanks source) with
  | .error e => .error e
  | .ok name =>
    have hn := name.length_lt
    match document.openTable name.value with
    | .error fault => .error ⟨fault, name.rest⟩
    | .ok document =>
      match h : name.rest with
      | ']' :: rest =>
        .ok ⟨document, rest, by
          rw [h] at hn
          simp only [List.length_cons] at hn
          omega⟩
      | rest => .error ⟨.unclosedTableHeader, rest⟩

def statement (document : Document) (c : Char) (rest : Text) :
    Reads Document ((c :: rest).length + 1) :=
  if c = '[' then
    match rest with
    | '[' :: rest => (document.endSection.itemHeader rest).map (Parsed.weaken (by simp))
    | rest => (document.endSection.tableHeader rest).map (Parsed.weaken (by simp))
  else if c = '#' then .ok ⟨document, c :: rest, Nat.lt_succ_self _⟩
  else if isBareKeyChar c || c = '\x22' || c = '\x27' then
    match pair maxOpenRules (c :: rest) with
    | .error e => .error e
    | .ok entry =>
      match document.define entry.value.1 entry.value.2 with
      | .error fault => .error ⟨fault, entry.rest⟩
      | .ok document => .ok ⟨document, entry.rest, Nat.lt_succ_of_lt entry.length_lt⟩
  else .error ⟨.invalidStatement, c :: rest⟩

def read (document : Document) (source : Text) : Except Failure Document :=
  have hs := skipBlanks_length_le source
  match h : skipBlanks source with
  | [] => .ok document
  | c :: rest =>
    have hc : rest.length < source.length := by
      rw [h] at hs
      exact hs
    if c = '\n' then read document rest
    else
      match document.statement c rest with
      | .error e => .error e
      | .ok next =>
        have hn := next.length_lt
        match skipComment (skipBlanks next.rest) with
        | .error e => .error e
        | .ok comment =>
          have hk := comment.length_lt
          match hr : comment.rest with
          | [] => .ok next.value
          | d :: after =>
            if d = '\n' then
              have : after.length < source.length := by
                have := skipBlanks_length_le next.rest
                rw [hr] at hk
                simp only [List.length_cons] at hk hn
                omega
              read next.value after
            else .error ⟨.statementNotEnded, d :: after⟩
termination_by source.length

def withoutReturns : Text → Text
  | [] => []
  | '\r' :: '\n' :: rest => '\n' :: withoutReturns rest
  | c :: rest => c :: withoutReturns rest

def tables (source : Text) : Except Error Table :=
  let source := withoutReturns source
  match read {} source with
  | .ok document => .ok document.root
  | .error e => .error ⟨e.fault, .ofRest source e.rest⟩

end Document
end ScriptLiterals.Toml
