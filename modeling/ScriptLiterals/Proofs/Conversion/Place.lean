import ScriptLiterals.Conversion
import ScriptLiterals.Proofs.Literal.Fault
import ScriptLiterals.Proofs.Source.Tokens

/-!
Where the errors of a script are: each belongs to one integer, and its span is the part of the script
that it is about.

Main statement: `errors_belong_to_integers`.
-/

namespace ScriptLiterals

namespace Conversion

variable {source : Text} {options : Options} {token later : Token} {e : LocatedError}

theorem mem_integers_iff :
    token ∈ integers source ↔ token ∈ Token.ofSource source ∧ token.kind = .integer := by
  simp [integers]

theorem integers_eq (source : Text) :
    integers source = (Token.ofLexemes .start (lexemes source)).filter (·.kind = .integer) := by
  simp [integers, Token.ofSource_eq, Token.endAt]

theorem mem_ofLexemes_of_mem_integers (member : token ∈ integers source) :
    token ∈ Token.ofLexemes .start (lexemes source) := by
  rw [integers_eq] at member
  exact List.mem_of_mem_filter member

theorem integers_pairwise (source : Text) :
    (integers source).Pairwise fun token later =>
      token.span.stop.offset ≤ later.span.start.offset := by
  rw [integers_eq]
  exact (Token.ofLexemes_pairwise _ _).filter _

theorem eq_of_covers {offset : Int} (member : token ∈ integers source)
    (member' : later ∈ integers source)
    (covers : token.span.start.offset ≤ offset ∧ offset < token.span.stop.offset)
    (covers' : later.span.start.offset ≤ offset ∧ offset < later.span.stop.offset) :
    token = later := by
  let Apart (first second : Token) : Prop :=
    first.span.stop.offset ≤ second.span.start.offset ∨
      second.span.stop.offset ≤ first.span.start.offset
  have symmetric : Std.Symm Apart := ⟨fun _ _ => Or.symm⟩
  have apart : (integers source).Pairwise Apart := (integers_pairwise source).imp Or.inl
  by_contra different
  rcases apart.forall member member' different with before | behind
  · omega
  · omega

theorem value?_eq_some_iff {found : Token} {value : Int} :
    value? options token = some (found, value) ↔
      found = token ∧ readLiteral token.text options = .ok value := by
  unfold value?
  cases readLiteral token.text options <;> simp [eq_comm]

theorem error?_eq_some_iff :
    error? source options token = some e ↔ ∃ fault, readLiteral token.text options = .error fault ∧
      e = ⟨fault, fault.spanIn token, source⟩ := by
  unfold error?
  cases read : readLiteral token.text options with
  | ok value => simp
  | error fault => simp [eq_comm]

theorem error?_within (source whole : Text) (options : Options) (token : Token) :
    error? whole options token =
      (error? source options token).map fun e => { e with source := whole } := by
  unfold error?
  cases readLiteral token.text options <;> rfl

/-- The part of a script that an error of a token is about. An overflow is about the whole literal, a
bad character about itself, and missing digits about the place behind the literal. -/
inductive Marks (source : Text) (token : Token) : LiteralFault → Span → Prop
  | literal {radix : Radix} {width : Int} : Marks source token (.overflow radix width) token.span
  | character {radix : Radix} {character : Text} {wording : Option Text} {span : Span}
      {first last : Nat} (start : span.start.IsAt source first) (stop : span.stop.IsAt source last)
      (slice : (source.take last).drop first = character)
      (inside : token.span.start.offset ≤ first ∧ last ≤ token.span.stop.offset) :
      Marks source token (.malformed radix (some character) wording) span
  | behind {radix : Radix} {wording : Option Text} :
      Marks source token (.malformed radix none wording)
        ⟨token.span.stop, token.span.stop.advance 1⟩

/-- The error is about the text of a token of the script, and marks the faulty part on its line. -/
structure BelongsTo (source : Text) (e : LocatedError) (token : Token) : Prop where
  source_eq : e.source = source
  text_eq : e.error.text = token.text
  line_eq : e.span.start.line = token.span.start.line ∧ e.span.stop.line = token.span.start.line
  nonempty : e.span.start.offset < e.span.stop.offset ∧ e.span.start.column < e.span.stop.column
  marks : Marks source token e.error.fault e.span

theorem integer_placed (member : token ∈ integers source) :
    ∃ before rest, source = before ++ token.text ++ rest ∧ (∀ c ∈ token.text, isNumberChar c = true) ∧
      token.text ≠ [] ∧ token.span = ⟨Position.start.after before,
        (Position.start.after before).advance token.text.length⟩ := by
  have member' := mem_ofLexemes_of_mem_integers member
  obtain ⟨before, rest, kind, split, number, placed⟩ := Token.mem_ofLexemes_lexemes member'
  have oneLine := newline_not_mem_of_isNumberChar number.characters
  refine ⟨before, rest, split, number.characters, Token.text_ne_nil_of_mem member', ?_⟩
  rw [← Position.after_eq_advance _ oneLine, ← Position.after_append, placed]

theorem isAt_advance {before text rest : Text} {count : Nat} (oneLine : '\n' ∉ text)
    (inside : count ≤ text.length) :
    ((Position.start.after before).advance count).IsAt (before ++ text ++ rest)
      (before.length + count) := by
  have front : '\n' ∉ text.take count := fun feed => oneLine (List.mem_of_mem_take feed)
  have placed := Token.isAt_after (before ++ text.take count) (text.drop count ++ rest)
  rw [Position.after_append, Position.after_eq_advance _ front, List.append_assoc,
    ← List.append_assoc (text.take count), List.take_append_drop] at placed
  simpa [Nat.min_eq_left inside] using placed

theorem take_drop_of_getElem? {before text rest : Text} {index : Nat} {c : Char}
    (here : text[index]? = some c) :
    ((before ++ text ++ rest).take (before.length + (index + 1))).drop (before.length + index) =
      [c] := by
  obtain ⟨inside, here⟩ := List.getElem?_eq_some_iff.mp here
  have one : before.length + (index + 1) - (before.length + index) = 1 := by omega
  rw [List.drop_take, one, List.append_assoc, List.drop_length_add_append,
    List.drop_append_of_le_length inside.le, List.drop_eq_getElem_cons inside, here]
  rfl

theorem belongsTo_of_isFaultOf {fault : LiteralError} (member : token ∈ integers source)
    (isFault : fault.IsFaultOf token.text) :
    BelongsTo source ⟨fault, fault.spanIn token, source⟩ token := by
  obtain ⟨before, rest, split, characters, nonempty, placed⟩ := integer_placed member
  have oneLine := newline_not_mem_of_isNumberChar characters
  have length := List.length_pos_iff.mpr nonempty
  cases isFault with
  | @character index c here radix wording worded =>
    have inside : index < token.text.length := (List.getElem?_eq_some_iff.mp here).1
    have start := @isAt_advance before token.text rest index oneLine inside.le
    have stop := @isAt_advance before token.text rest (index + 1) oneLine inside
    have slice := @take_drop_of_getElem? before token.text rest index c here
    rw [← split] at start stop slice
    have offset : (Position.start.after before).offset = before.length := by
      simp [Position.offset_after, Position.start]
    refine ⟨rfl, rfl, ⟨by simp [LiteralError.spanIn, placed, Position.advance], ?_⟩, ?_, ?_⟩
    · simp [LiteralError.spanIn, placed, Position.advance]
    · simp [LiteralError.spanIn, placed, Position.advance]
    · refine .character ?_ ?_ slice ?_
      · simpa [LiteralError.spanIn, placed] using start
      · simpa [LiteralError.spanIn, placed] using stop
      · simp only [placed, Position.advance, offset]
        omega
  | noDigits radix =>
    have span : (LiteralError.noDigits token.text radix).spanIn token =
        ⟨token.span.stop, token.span.stop.advance 1⟩ := by
      simp [LiteralError.spanIn, LiteralError.noDigits, placed, Position.advance, add_assoc]
    rw [span]
    refine ⟨rfl, rfl, ?_, ?_, .behind⟩
    · simp [placed, Position.advance]
    · simp [Position.advance]
  | overflow index radix width =>
    refine ⟨rfl, rfl, ?_, ?_, .literal⟩
    · simp [LiteralError.spanIn, LiteralError.overflow, placed, Position.advance]
    · simp only [LiteralError.spanIn, LiteralError.overflow, placed, Position.advance]
      omega

def anchor : LiteralFault → Span → Int
  | .malformed _ none _, span => span.start.offset - 1
  | _, span => span.start.offset

theorem Marks.covers_anchor {fault : LiteralFault} {span : Span}
    (marks : Marks source token fault span) (nonempty : span.start.offset < span.stop.offset)
    (covers : token.span.start.offset < token.span.stop.offset) :
    token.span.start.offset ≤ anchor fault span ∧ anchor fault span < token.span.stop.offset := by
  cases marks with
  | literal => exact ⟨le_refl _, nonempty⟩
  | character start stop slice inside =>
    have first := start.offset_eq
    have last := stop.offset_eq
    simp only [anchor]
    omega
  | behind =>
    simp only [anchor]
    omega

theorem Marks.one_le {fault : LiteralFault} {span : Span} (marks : Marks source token fault span)
    (exact' : token.IsExact source) : 1 ≤ span.start.line ∧ 1 ≤ span.start.column := by
  obtain ⟨first, last, start, stop, -⟩ := exact'.slice
  cases marks with
  | literal => exact start.one_le
  | character start => exact start.one_le
  | behind => exact stop.one_le

theorem start_lt_stop_of_mem_integers (member : token ∈ integers source) :
    token.span.start.offset < token.span.stop.offset :=
  Token.start_lt_stop_of_mem (mem_ofLexemes_of_mem_integers member)

theorem BelongsTo.unique (member : token ∈ integers source) (member' : later ∈ integers source)
    (belongs : BelongsTo source e token) (belongs' : BelongsTo source e later) : token = later := by
  apply eq_of_covers member member'
  · exact belongs.marks.covers_anchor belongs.nonempty.1 (start_lt_stop_of_mem_integers member)
  · exact belongs'.marks.covers_anchor belongs'.nonempty.1 (start_lt_stop_of_mem_integers member')

def rejected (source : Text) (options : Options) : List Token :=
  (integers source).filter fun token => (error? source options token).isSome

theorem forall₂_filterMap {α β : Type} {related : β → α → Prop} {f : α → Option β} {items : List α}
    (relates : ∀ a ∈ items, ∀ b, f a = some b → related b a) :
    List.Forall₂ related (items.filterMap f) (items.filter fun a => (f a).isSome) := by
  induction items with
  | nil => exact .nil
  | cons a items ih =>
    have rest := ih fun a member => relates a (List.mem_cons_of_mem _ member)
    cases found : f a with
    | none => simpa [List.filterMap_cons, List.filter_cons, found] using rest
    | some b =>
      have head := relates a List.mem_cons_self b found
      simpa [List.filterMap_cons, List.filter_cons, found] using List.Forall₂.cons head rest

theorem belongsTo_of_error? (member : token ∈ integers source)
    (found : error? source options token = some e) : BelongsTo source e token := by
  obtain ⟨fault, read, rfl⟩ := error?_eq_some_iff.mp found
  exact belongsTo_of_isFaultOf member (LiteralError.isFaultOf_of_readLiteral read)

/-- Each error belongs to one integer of the script, and the errors come in the order of the integers
that have no value. -/
theorem errors_belong_to_integers (source : Text) (options : Options) :
    (∀ e ∈ (ofSource source options).errors,
      ∃! token, (token ∈ Token.ofSource source ∧ token.kind = .integer) ∧ BelongsTo source e token) ∧
    ∃ tokens, List.Forall₂ (BelongsTo source) (ofSource source options).errors tokens ∧
      (∀ token, token ∈ tokens ↔ (token ∈ Token.ofSource source ∧ token.kind = .integer) ∧
        ¬ ∃ value, readLiteral token.text options = .ok value) ∧
      tokens.Pairwise fun token later =>
        token.span.start.offset < later.span.start.offset ∧
          token.span.stop.offset ≤ later.span.start.offset := by
  refine ⟨?_, rejected source options, ?_, ?_, ?_⟩
  · intro e member
    obtain ⟨token, integer, found⟩ := List.mem_filterMap.mp member
    have belongs := belongsTo_of_error? integer found
    refine ⟨token, ⟨mem_integers_iff.mp integer, belongs⟩, ?_⟩
    rintro other ⟨integer', belongs'⟩
    exact belongs'.unique (mem_integers_iff.mpr integer') integer belongs
  · apply forall₂_filterMap
    intro token member e found
    exact belongsTo_of_error? member found
  · intro token
    rw [rejected, List.mem_filter, mem_integers_iff]
    apply and_congr_right
    intro _
    cases read : readLiteral token.text options <;> simp [error?, read]
  -- the errors are those of a part of the integers, which stand one behind the other
  · have apart := (integers_pairwise source).filter
      fun token => (error? source options token).isSome
    apply apart.imp_of_mem
    intro token later member _ disjoint
    have nonempty := start_lt_stop_of_mem_integers (List.mem_of_mem_filter member)
    exact ⟨lt_of_lt_of_le nonempty disjoint, disjoint⟩

end Conversion
end ScriptLiterals
