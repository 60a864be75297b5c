import ScriptLiterals.Proofs.Source.Reworded
import ScriptLiterals.Proofs.Source.Tokens

/-!
Scripts that differ only inside of strings, comments and identifiers, at characters that decide
nothing there. They are cut at the same places and have the same tokens.

Main statement: `Token.ofSource_of_differsInside`.
-/

namespace ScriptLiterals

variable {source source' text' rest rest' : Text} {lexeme : Lexeme} {cut cut' : List Lexeme}
  {texts : List Text}

namespace Lexeme

/-- A character that a region may have behind its first characters without ending there. Line feeds
are excepted, since they move what follows to other lines. -/
def Ignores (lexeme : Lexeme) (index : Nat) (c : Char) : Prop :=
  match lexeme.kind with
  | .string => 0 < index ∧ lexeme.text.head? ≠ some c ∧ c ≠ '\\' ∧ c ≠ '\n'
  | .blockComment => c ≠ '/' ∧ c ≠ '*' ∧ c ≠ '\n'
  | .lineComment => 2 ≤ index ∧ c ≠ '\n'
  | .identifier => 0 < index ∧ isWordChar c
  | .number _ | .other => False

instance (lexeme : Lexeme) (index : Nat) (c : Char) : Decidable (lexeme.Ignores index c) :=
  match lexeme with
  | ⟨.string, text⟩ =>
    inferInstanceAs (Decidable (0 < index ∧ text.head? ≠ some c ∧ c ≠ '\\' ∧ c ≠ '\n'))
  | ⟨.blockComment, _⟩ => inferInstanceAs (Decidable (c ≠ '/' ∧ c ≠ '*' ∧ c ≠ '\n'))
  | ⟨.lineComment, _⟩ => inferInstanceAs (Decidable (2 ≤ index ∧ c ≠ '\n'))
  | ⟨.identifier, _⟩ => inferInstanceAs (Decidable (0 < index ∧ isWordChar c))
  | ⟨.number _, _⟩ | ⟨.other, _⟩ => inferInstanceAs (Decidable False)

structure Exchanged (lexeme : Lexeme) (start : Nat) (part text' : Text) : Prop where
  length_eq : text'.length = part.length
  ignored : ∀ (index : Nat) c d, part[index]? = some c → text'[index]? = some d →
    c = d ∨ lexeme.Ignores (start + index) c ∧ lexeme.Ignores (start + index) d

theorem exchanged_nil (start : Nat) : lexeme.Exchanged start [] [] := ⟨rfl, by simp⟩

theorem exchanged_cons_iff {start : Nat} {c d : Char} {part : Text} :
    lexeme.Exchanged start (c :: part) (d :: text') ↔
      (c = d ∨ lexeme.Ignores start c ∧ lexeme.Ignores start d) ∧
        lexeme.Exchanged (start + 1) part text' := by
  have shift : ∀ index, start + 1 + index = start + (index + 1) := by omega
  constructor
  · rintro ⟨length_eq, ignored⟩
    refine ⟨ignored 0 c d rfl rfl, by simpa using length_eq, ?_⟩
    intro index
    rw [shift]
    exact ignored (index + 1)
  · rintro ⟨first, length_eq, ignored⟩
    refine ⟨by simp [length_eq], ?_⟩
    intro index e e' here here'
    cases index with
    | zero =>
      obtain rfl : c = e := by simpa using here
      obtain rfl : d = e' := by simpa using here'
      exact first
    | succ index =>
      rw [← shift]
      exact ignored index e e' here here'

instance decidableExchanged (lexeme : Lexeme) :
    ∀ start part text', Decidable (lexeme.Exchanged start part text')
  | start, [], [] => isTrue (exchanged_nil start)
  | _, [], _ :: _ => isFalse fun exchanged => absurd exchanged.length_eq (by simp)
  | _, _ :: _, [] => isFalse fun exchanged => absurd exchanged.length_eq (by simp)
  | start, _ :: part, _ :: text' =>
    have := decidableExchanged lexeme (start + 1) part text'
    decidable_of_iff _ exchanged_cons_iff.symm

end Lexeme

/-- A script that differs from the given regions only at characters that the regions ignore. -/
structure DiffersInside (cut : List Lexeme) (source' : Text) : Prop where
  length_eq : source'.length = (Lexeme.joinedText cut).length
  ignored : ∀ front lexeme back, cut = front ++ lexeme :: back →
    ∀ index c d, lexeme.text[index]? = some c →
      source'[(Lexeme.joinedText front).length + index]? = some d →
        c = d ∨ lexeme.Ignores index c ∧ lexeme.Ignores index d

theorem DiffersInside.exists_cons (differs : DiffersInside (lexeme :: cut) source') :
    ∃ text' rest', source' = text' ++ rest' ∧ lexeme.Exchanged 0 lexeme.text text' ∧
      DiffersInside cut rest' := by
  obtain ⟨length_eq, ignored⟩ := differs
  rw [Lexeme.joinedText_cons, List.length_append] at length_eq
  have first : (source'.take lexeme.text.length).length = lexeme.text.length := by
    simp [length_eq]
  refine ⟨source'.take lexeme.text.length, source'.drop lexeme.text.length,
    (List.take_append_drop ..).symm, ⟨first, ?_⟩, ⟨by simp [length_eq], ?_⟩⟩
  · intro index c d here here'
    rw [Nat.zero_add]
    apply ignored [] lexeme cut rfl index c d here
    have inside : index < lexeme.text.length := (List.getElem?_eq_some_iff.mp here).1
    simpa [List.getElem?_take, inside] using here'
  · rintro front later back rfl index c d here here'
    apply ignored (lexeme :: front) later back rfl index c d here
    rw [List.getElem?_drop] at here'
    rwa [Lexeme.joinedText_cons, List.length_append, Nat.add_assoc]

theorem differsInside_nil : DiffersInside [] [] := ⟨rfl, by simp⟩

theorem DiffersInside.cons (text' : Text) (exchanged : lexeme.Exchanged 0 lexeme.text text')
    (differs : DiffersInside cut rest') : DiffersInside (lexeme :: cut) (text' ++ rest') where
  length_eq := by simp [exchanged.length_eq, differs.length_eq]
  ignored := by
    intro front later back same index c d here here'
    cases front with
    | nil =>
      obtain ⟨rfl, rfl⟩ := List.cons.inj same
      have same := exchanged.ignored index c d here
      rw [Nat.zero_add] at same
      apply same
      have inside : index < lexeme.text.length := (List.getElem?_eq_some_iff.mp here).1
      rw [← exchanged.length_eq] at inside
      simpa [List.getElem?_append_left inside] using here'
    | cons first front =>
      obtain ⟨rfl, rfl⟩ := List.cons.inj same
      apply differs.ignored front later back rfl index c d here
      rw [Lexeme.joinedText_cons, List.length_append, Nat.add_assoc, ← exchanged.length_eq,
        List.getElem?_append_right (by omega), Nat.add_sub_cancel_left] at here'
      exact here'

namespace Lexeme

variable {start : Nat} {part : Text} {c d : Char}

theorem Exchanged.cases_cons (exchanged : lexeme.Exchanged start (c :: part) text') :
    ∃ d more, text' = d :: more ∧ (c = d ∨ lexeme.Ignores start c ∧ lexeme.Ignores start d) ∧
      lexeme.Exchanged (start + 1) part more := by
  obtain ⟨d, more, rfl⟩ := List.exists_cons_of_length_eq_add_one exchanged.length_eq
  exact ⟨d, more, rfl, exchanged_cons_iff.mp exchanged⟩

theorem Exchanged.exists_cons (exchanged : lexeme.Exchanged start (c :: part) text')
    (busy : ¬ lexeme.Ignores start c) :
    ∃ more, text' = c :: more ∧ lexeme.Exchanged (start + 1) part more := by
  obtain ⟨d, more, rfl, rfl | ⟨ignored, -⟩, others⟩ := exchanged.cases_cons
  · exact ⟨more, rfl, others⟩
  · exact absurd ignored busy

theorem Exchanged.eq_of_keeps (exchanged : lexeme.Exchanged start part text')
    (keeps : ∀ index c, ¬ lexeme.Ignores index c) : text' = part := by
  apply List.ext_getElem exchanged.length_eq
  intro index inside' inside
  have same := exchanged.ignored index part[index] text'[index] (List.getElem?_eq_getElem inside)
    (List.getElem?_eq_getElem inside')
  exact (same.resolve_right fun both => keeps _ _ both.1).symm

theorem Exchanged.mem (exchanged : lexeme.Exchanged start part text') (member : d ∈ text') :
    d ∈ part ∨ ∃ index, lexeme.Ignores index d := by
  obtain ⟨index, inside', rfl⟩ := List.mem_iff_getElem.mp member
  have inside := exchanged.length_eq ▸ inside'
  have same := exchanged.ignored index part[index] text'[index] (List.getElem?_eq_getElem inside)
    (List.getElem?_eq_getElem inside')
  rcases same with same | both
  · rw [← same]
    exact .inl (List.getElem_mem inside)
  · exact .inr ⟨_, both.2⟩

theorem Exchanged.reworded {idle : Char → Prop} (exchanged : lexeme.Exchanged start part text')
    (isIdle : ∀ index c, lexeme.Ignores index c → idle c) : Reworded idle part text' := by
  apply Respelled.of_getElem? exchanged.length_eq
  intro index c d here here'
  rcases exchanged.ignored index c d here here' with rfl | both
  · exact .inl rfl
  · exact .inr ⟨isIdle _ _ both.1, by simp, by simpa using isIdle _ _ both.2⟩

theorem Exchanged.rewording (region : lexeme.IsRegion rest)
    (exchanged : lexeme.Exchanged 0 lexeme.text text') :
    lexeme.Rewording ⟨lexeme.kind, text'⟩ := by
  obtain ⟨kind, text⟩ := lexeme
  -- the characters that make a region what it is are kept, so the rest of it is its inside
  cases kind with
  | lineComment =>
    obtain ⟨content, rfl, oneLine, -⟩ : IsLineComment text rest := region
    obtain ⟨_, rfl, behind⟩ := exchanged.exists_cons (by simp [Ignores])
    obtain ⟨content', rfl, inside⟩ := behind.exists_cons (by simp [Ignores])
    refine .lineComment ?_
    intro feed
    rcases inside.mem feed with feed | ⟨index, ignored⟩
    · exact oneLine feed
    · exact ignored.2 rfl
  | blockComment =>
    obtain ⟨content, rfl, -⟩ := blockComment_complete region
    obtain ⟨_, rfl, behind⟩ := exchanged.exists_cons (by simp [Ignores])
    obtain ⟨content', rfl, inside⟩ := behind.exists_cons (by simp [Ignores])
    exact .blockComment (inside.reworded fun index c ignored => ⟨ignored.1, ignored.2.1⟩)
  | string =>
    obtain ⟨quote, content, -, rfl, -⟩ := string_complete region
    obtain ⟨content', rfl, inside⟩ := exchanged.exists_cons (by simp [Ignores])
    refine .string (inside.reworded ?_)
    rintro index c ⟨-, noQuote, bare, -⟩
    exact ⟨fun same => noQuote (congrArg some same.symm), bare⟩
  | identifier =>
    obtain ⟨c, content, rfl, -, isRun⟩ : IsIdentifier text rest := region
    obtain ⟨content', rfl, inside⟩ := exchanged.exists_cons (by simp [Ignores])
    refine .identifier ?_
    intro d member
    rcases inside.mem member with member | ⟨index, ignored⟩
    · exact isRun.1 d (List.mem_cons_of_mem c member)
    · exact ignored.2
  | number kind =>
    obtain rfl : text' = text := exchanged.eq_of_keeps (by simp [Ignores])
    exact .number kind text'
  | other =>
    obtain rfl : text' = text := exchanged.eq_of_keeps (by simp [Ignores])
    exact .other text'

theorem IsRegion.not_ignores_first {more : Text} (region : lexeme.IsRegion rest)
    (text : lexeme.text = c :: more) : ¬ lexeme.Ignores 0 c := by
  obtain ⟨kind, text⟩ := lexeme
  cases kind with
  | blockComment =>
    obtain ⟨content, rfl, -⟩ := blockComment_complete region
    obtain rfl : '/' = c := (List.cons.inj text).1
    simp [Ignores]
  | _ => simp [Ignores]

theorem IsRegion.eq_other {source : Text} (region : lexeme.IsRegion rest)
    (front : lexeme.text ++ rest = c :: source) (noQuote : ¬ isQuote c = true)
    (noWord : ¬ isWordChar c = true) (noSlash : c ≠ '/') : lexeme = ⟨.other, [c]⟩ ∧ rest = source := by
  have cut := first_complete region front
  rw [first_other noQuote noWord fun comment => noSlash comment.1] at cut
  obtain ⟨rfl, rfl⟩ := Prod.mk.inj cut
  exact ⟨rfl, rfl⟩

end Lexeme

theorem DiffersInside.eq_nil (differs : DiffersInside [] source') : source' = [] :=
  List.length_eq_zero_iff.mp differs.length_eq

theorem DiffersInside.head?_eq (differs : DiffersInside cut source') (isCut : IsCutInto source cut) :
    source'.head? = source.head? := by
  cases isCut with
  | nil => rw [differs.eq_nil]
  | @cons lexeme rest cut region isCut =>
    obtain ⟨text', rest', rfl, exchanged, -⟩ := differs.exists_cons
    obtain ⟨c, more, text⟩ := List.exists_cons_of_ne_nil region.text_ne_nil
    rw [text] at exchanged ⊢
    obtain ⟨more', rfl, -⟩ := exchanged.exists_cons (region.not_ignores_first text)
    rfl

theorem DiffersInside.exists_of_single {c d : Char} {more : Text}
    (differs : DiffersInside cut (c :: d :: more)) (isCut : IsCutInto source cut)
    (noQuote : ¬ isQuote c = true) (noWord : ¬ isWordChar c = true) (noSlash : c ≠ '/') :
    ∃ inner, source = c :: d :: inner := by
  obtain ⟨behind, rfl⟩ := List.head?_eq_some_iff.mp (differs.head?_eq isCut).symm
  generalize whole : c :: behind = source at isCut
  cases isCut with
  | nil => contradiction
  | @cons lexeme rest cut region isCut =>
    obtain ⟨rfl, rfl⟩ := region.eq_other whole.symm noQuote noWord noSlash
    obtain ⟨text', rest', same, exchanged, differs'⟩ := differs.exists_cons
    obtain rfl := exchanged.eq_of_keeps (by simp [Lexeme.Ignores])
    obtain ⟨-, rfl⟩ := List.cons.inj same
    obtain ⟨inner, rfl⟩ := List.head?_eq_some_iff.mp (differs'.head?_eq isCut).symm
    exact ⟨inner, rfl⟩

theorem DiffersInside.endsAsBefore (differs : DiffersInside cut rest') (isCut : IsCutInto rest cut) :
    EndsAsBefore rest rest' where
  word := by
    intro c head wordChar
    rw [differs.head?_eq isCut] at head
    exact ⟨c, head, wordChar⟩
  fraction := by
    rintro ⟨digit, more, isDigit', rfl⟩
    obtain ⟨inner, rfl⟩ := differs.exists_of_single isCut (by decide) (by decide) (by decide)
    exact ⟨digit, inner, isDigit', rfl⟩
  exponent := by
    rintro ⟨sign, digit, more, isSign', isDigit', rfl⟩
    obtain ⟨noQuote, noWord, noSlash⟩ :
        ¬ isQuote sign = true ∧ ¬ isWordChar sign = true ∧ sign ≠ '/' := by
      simp only [isSign, Bool.or_eq_true, decide_eq_true_eq] at isSign'
      rcases isSign' with rfl | rfl <;> decide
    obtain ⟨inner, rfl⟩ := differs.exists_of_single isCut noQuote noWord noSlash
    exact ⟨sign, digit, inner, isSign', isDigit', rfl⟩
  comment := by rw [differs.head?_eq isCut]; exact id

structure Lexeme.SameShape (lexeme lexeme' : Lexeme) : Prop where
  kind_eq : lexeme'.kind = lexeme.kind
  after_eq : ∀ p : Position, p.after lexeme'.text = p.after lexeme.text
  number : ∀ kind, lexeme.kind = .number kind → lexeme'.text = lexeme.text

theorem Lexeme.Ignores.ne_newline {index : Nat} {c : Char} (ignored : lexeme.Ignores index c) :
    c ≠ '\n' := by
  rintro rfl
  obtain ⟨kind, text⟩ := lexeme
  cases kind <;> simp [Ignores, isWordChar, isDigit, startsIdentifier] at ignored

theorem Position.next_eq_of_ne_newline (p : Position) {c d : Char} (visible : c ≠ '\n')
    (visible' : d ≠ '\n') : p.next c = p.next d := by
  rw [next, next, if_neg visible, if_neg visible']

theorem Lexeme.Exchanged.after_eq {start : Nat} {part : Text}
    (exchanged : lexeme.Exchanged start part text') (p : Position) : p.after text' = p.after part := by
  induction part generalizing start text' p with
  | nil =>
    obtain rfl := List.length_eq_zero_iff.mp exchanged.length_eq
    rfl
  | cons c part ih =>
    obtain ⟨d, more, rfl, rfl | ⟨ignored, ignored'⟩, others⟩ := exchanged.cases_cons
    · exact ih others _
    · rw [Position.after_cons, Position.after_cons, ih others,
        p.next_eq_of_ne_newline ignored.ne_newline ignored'.ne_newline]

theorem IsCutInto.differsInside (isCut : IsCutInto source cut) (differs : DiffersInside cut source') :
    ∃ cut', IsCutInto source' cut' ∧ List.Forall₂ Lexeme.SameShape cut cut' := by
  induction isCut generalizing source' with
  | nil =>
    rw [differs.eq_nil]
    exact ⟨[], .nil, .nil⟩
  | @cons lexeme rest cut region isCut ih =>
    obtain ⟨text', rest', rfl, exchanged, differs⟩ := differs.exists_cons
    obtain ⟨cut', isCut', alike⟩ := ih differs
    have head := differs.head?_eq isCut
    have last : rest = [] → rest' = [] := by
      rintro rfl
      exact List.head?_eq_none_iff.mp head
    have feed : ∀ more, rest = '\n' :: more → ∃ more', rest' = '\n' :: more' := by
      rintro more rfl
      exact List.head?_eq_some_iff.mp head
    have region' := region.reworded (exchanged.rewording region) (differs.endsAsBefore isCut) last feed
    refine ⟨_, .cons region' isCut', .cons ⟨rfl, exchanged.after_eq, ?_⟩ alike⟩
    intro kind number
    apply exchanged.eq_of_keeps
    simp [Lexeme.Ignores, number]

theorem Token.ofLexemes_of_sameShape (alike : List.Forall₂ Lexeme.SameShape cut cut') (p : Position) :
    ofLexemes p cut' = ofLexemes p cut ∧
      p.after (Lexeme.joinedText cut') = p.after (Lexeme.joinedText cut) := by
  induction alike generalizing p with
  | nil => exact ⟨rfl, rfl⟩
  | @cons lexeme lexeme' cut cut' same alike ih =>
    obtain ⟨tokens, stop⟩ := ih (p.after lexeme.text)
    rw [ofLexemes, ofLexemes, same.kind_eq, same.after_eq, tokens, Lexeme.joinedText_cons,
      Lexeme.joinedText_cons, Position.after_append, Position.after_append, same.after_eq, stop]
    refine ⟨?_, rfl⟩
    cases kind : lexeme.kind with
    | number number => simp only [same.number number kind]
    | _ => rfl

theorem Token.ofSource_of_differsInside (differs : DiffersInside (lexemes source) source') :
    ofSource source' = ofSource source := by
  obtain ⟨cut', isCut', alike⟩ := (isCutInto_lexemes source).differsInside differs
  obtain ⟨tokens, stop⟩ := ofLexemes_of_sameShape alike .start
  obtain rfl := (isCutInto_iff ..).mp isCut'
  have whole : Lexeme.joinedText (lexemes source) = source := lexemes_flatten source
  have whole' : Lexeme.joinedText (lexemes source') = source' := lexemes_flatten source'
  rw [whole, whole'] at stop
  rw [ofSource_eq, ofSource_eq, tokens, stop]

end ScriptLiterals
