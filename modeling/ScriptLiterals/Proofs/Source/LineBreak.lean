import ScriptLiterals.Proofs.Source.Ending

/-!
Cutting a script at a line break. A line feed ends every region except a string and a block comment,
so behind a line feed outside of these the script is cut as if it began there.

Main statement: `lexemes_append_newline`.
-/

namespace ScriptLiterals

variable {text rest : Text}

/-- A string that has its closing quote, a block comment that has all its closing marks, or a region
that needs none. -/
def Lexeme.IsClosed (lexeme : Lexeme) : Prop :=
  match lexeme.kind with
  | .string => ∃ quote content, Enclosed quote content ∧ lexeme.text = quote :: (content ++ [quote])
  | .blockComment => CommentPart.depth (CommentPart.ofText lexeme.text) = 0
  | _ => True

theorem IsLineComment.append_newline (comment : IsLineComment text rest) (more : Text) :
    IsLineComment text (rest ++ '\n' :: more) := by
  obtain ⟨content, same, inside, ending⟩ := comment
  refine ⟨content, same, inside, .inr ?_⟩
  rcases ending with rfl | ⟨others, rfl⟩
  · exact ⟨more, rfl⟩
  · exact ⟨others ++ '\n' :: more, rfl⟩

namespace CommentPart

theorem ofText_append_newline (first second : Text) :
    ofText (first ++ '\n' :: second) = ofText first ++ other '\n' :: ofText second := by
  fun_induction ofText first with
  | case1 => simp [ofText]
  | case2 first ih => simp [ofText, ih]
  | case3 first ih => simp [ofText, ih]
  | case4 c first notOpening notClosing ih =>
    rw [List.cons_append, ofText, ih, List.cons_append]
    · intro inner slash same
      cases first with
      | nil => simp at same
      | cons d first =>
        obtain ⟨rfl, -⟩ := List.cons.inj same
        exact notOpening first slash rfl
    · intro inner star same
      cases first with
      | nil => simp at same
      | cons d first =>
        obtain ⟨rfl, -⟩ := List.cons.inj same
        exact notClosing first star rfl

theorem ofText_flatMap_of_append {source : Text} {inside behind : List CommentPart}
    (parts : ofText source = inside ++ behind) :
    ofText (inside.flatMap CommentPart.text) = inside := by
  fun_induction ofText source generalizing inside with
  | case1 =>
    obtain ⟨rfl, -⟩ := List.append_eq_nil_iff.mp parts.symm
    rfl
  | case2 source ih =>
    cases inside with
    | nil => rfl
    | cons part inside =>
      obtain ⟨rfl, others⟩ := List.cons.inj parts
      simp [CommentPart.text, ofText, ih others]
  | case3 source ih =>
    cases inside with
    | nil => rfl
    | cons part inside =>
      obtain ⟨rfl, others⟩ := List.cons.inj parts
      simp [CommentPart.text, ofText, ih others]
  | case4 c source notOpening notClosing ih =>
    cases inside with
    | nil => rfl
    | cons part inside =>
      obtain ⟨rfl, others⟩ := List.cons.inj parts
      have whole : source = inside.flatMap CommentPart.text ++ behind.flatMap CommentPart.text := by
        rw [← List.flatMap_append]
        exact (ofText_flatMap source).symm.trans (congrArg (List.flatMap CommentPart.text) others)
      rw [List.flatMap_cons, CommentPart.text, List.singleton_append, ofText, ih others]
      -- a mark in the front part would be one in the whole
      · intro inner slash same
        rw [same, List.cons_append] at whole
        exact notOpening _ slash whole
      · intro inner star same
        rw [same, List.cons_append] at whole
        exact notClosing _ star whole

end CommentPart

open CommentPart in
theorem IsBlockComment.append_newline (comment : IsBlockComment text rest)
    (closed : depth (ofText text) = 0) (more : Text) :
    IsBlockComment text (rest ++ '\n' :: more) := by
  obtain ⟨inside, behind, parts, rfl, rfl, head, before, -⟩ := comment
  rw [ofText_flatMap_of_append parts] at closed
  refine ⟨inside, behind ++ other '\n' :: ofText more, ?_, rfl, ?_, head, before, .inl closed⟩
  · rw [← List.append_assoc, ofText_append_newline, parts, List.append_assoc]
  · simp [CommentPart.text, ofText_flatMap]

theorem IsString.append_newline {quote : Char} {content : Text} (string : IsString text rest)
    (enclosed : Enclosed quote content) (closed : text = quote :: (content ++ [quote]))
    (more : Text) : IsString text (rest ++ '\n' :: more) := by
  obtain ⟨quote', content', isQuote', -, ending⟩ := string
  have same : quote = quote' := by
    rcases ending with open' | ⟨-, open' | open'⟩ <;>
      exact (List.cons.inj (closed.symm.trans open')).1
  exact ⟨quote, content, same ▸ isQuote', enclosed, .inl closed⟩

theorem endsAsBefore_append_newline (rest more : Text) : EndsAsBefore rest (rest ++ '\n' :: more) := by
  refine .of_front (fun rest rest' => rest' = rest ++ '\n' :: more) ?_ rfl
  intro rest c more' goesOn same
  cases rest with
  | nil => exact absurd (List.cons.inj same).1 goesOn.ne_newline
  | cons d rest =>
    obtain ⟨rfl, rfl⟩ := List.cons.inj same
    exact ⟨rest, rfl, rfl⟩

theorem Lexeme.IsRegion.append_newline {lexeme : Lexeme} (region : lexeme.IsRegion rest)
    (closed : lexeme.IsClosed) (more : Text) : lexeme.IsRegion (rest ++ '\n' :: more) := by
  obtain ⟨kind, text⟩ := lexeme
  cases kind with
  | lineComment => exact IsLineComment.append_newline region more
  | blockComment => exact IsBlockComment.append_newline region closed more
  | string =>
    obtain ⟨quote, content, enclosed, closed⟩ := closed
    exact IsString.append_newline region enclosed closed more
  | identifier => exact IsIdentifier.endsAsBefore region (endsAsBefore_append_newline rest more)
  | number kind => exact IsNumber.endsAsBefore region (endsAsBefore_append_newline rest more)
  | other => exact IsOther.endsAsBefore region (endsAsBefore_append_newline rest more)

def Lexeme.newline : Lexeme := ⟨.other, ['\n']⟩

theorem Lexeme.isRegion_newline (rest : Text) : newline.IsRegion rest :=
  ⟨'\n', rfl, by decide, by decide, by simp⟩

theorem IsCutInto.append_newline {first second : Text} {front back : List Lexeme}
    (cut : IsCutInto first front) (closed : ∀ lexeme ∈ front, lexeme.IsClosed)
    (cut' : IsCutInto second back) :
    IsCutInto (first ++ '\n' :: second) (front ++ Lexeme.newline :: back) := by
  induction cut with
  | nil => exact .cons (Lexeme.isRegion_newline second) cut'
  | @cons lexeme rest more region cut ih =>
    have inner := ih fun lexeme member => closed lexeme (List.mem_cons_of_mem _ member)
    have region := region.append_newline (closed lexeme List.mem_cons_self) second
    rw [List.append_assoc]
    exact .cons region inner

/-- Behind a line feed that no string and no block comment contains, a script is cut as if it began
there. -/
theorem lexemes_append_newline {first : Text} (second : Text)
    (closed : ∀ lexeme ∈ lexemes first, lexeme.IsClosed) :
    lexemes (first ++ '\n' :: second) = lexemes first ++ Lexeme.newline :: lexemes second := by
  symm
  apply (isCutInto_iff ..).mp
  exact (isCutInto_lexemes first).append_newline closed (isCutInto_lexemes second)

end ScriptLiterals
