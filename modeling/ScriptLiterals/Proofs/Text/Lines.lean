import Mathlib.Data.List.TakeWhile
import Mathlib.Tactic
import ScriptLiterals.Text.Lines

/-!
The lines of a text for display, and what stands between its line feeds. The two agree where no other
line end interferes: a line is plain if it has none but a carriage return at its end.

Main statements: `lines_unlines` for the lines above a place, `lines_append` and `shown_line` for the
line itself.
-/

namespace ScriptLiterals.Text

variable {text line rest front below : Text} {cut : List Text} {c : Char}

def withoutReturn (line : Text) : Text := if line.getLast? = some '\r' then line.dropLast else line

def IsPlain (line : Text) : Prop := ∀ c ∈ withoutReturn line, isLineEnd c = false

instance (line : Text) : Decidable (IsPlain line) :=
  decidable_of_iff ((withoutReturn line).all fun c => !isLineEnd c) (by simp [IsPlain])

def unlines (cut : List Text) : Text := cut.flatMap (· ++ ['\n'])

@[simp]
theorem unlines_nil : unlines [] = [] := rfl

@[simp]
theorem unlines_cons (line : Text) (cut : List Text) :
    unlines (line :: cut) = line ++ '\n' :: unlines cut := by
  simp [unlines]

theorem unlines_append (cut more : List Text) : unlines (cut ++ more) = unlines cut ++ unlines more :=
  List.flatMap_append

theorem exists_unlines (text : Text) :
    ∃ cut front, text = unlines cut ++ front ∧ (∀ line ∈ cut, '\n' ∉ line) ∧ '\n' ∉ front := by
  induction text with
  | nil => exact ⟨[], [], rfl, by simp, by simp⟩
  | cons c text ih =>
    obtain ⟨cut, front, rfl, oneLine, last⟩ := ih
    by_cases feed : c = '\n'
    · exact ⟨[] :: cut, front, by simp [feed], by simpa using oneLine, last⟩
    · cases cut with
      | nil => exact ⟨[], c :: front, rfl, by simp, by simp [Ne.symm feed, last]⟩
      | cons line cut =>
        obtain ⟨first, others⟩ := List.forall_mem_cons.mp oneLine
        refine ⟨(c :: line) :: cut, front, by simp, List.forall_mem_cons.mpr ⟨?_, others⟩, last⟩
        simp [Ne.symm feed, first]

theorem splitOn_unlines (oneLine : ∀ line ∈ cut, '\n' ∉ line) (rest : Text) :
    (unlines cut ++ rest).splitOn '\n' = cut ++ rest.splitOn '\n' := by
  induction cut with
  | nil => rfl
  | cons line cut ih =>
    obtain ⟨first, others⟩ := List.forall_mem_cons.mp oneLine
    rw [unlines_cons, List.append_assoc, List.cons_append,
      List.splitOn_append_cons_self_of_not_mem first, ih others, List.cons_append]

theorem splitOn_line (oneLine : '\n' ∉ line) (feed : ∀ c ∈ below.head?, c = '\n') :
    ∃ more, (line ++ below).splitOn '\n' = line :: more := by
  cases below with
  | nil => exact ⟨[], by rw [List.append_nil, List.splitOn_eq_singleton oneLine]⟩
  | cons c below =>
    obtain rfl : c = '\n' := feed c rfl
    exact ⟨_, List.splitOn_append_cons_self_of_not_mem oneLine below⟩

theorem count_unlines (oneLine : ∀ line ∈ cut, '\n' ∉ line) :
    (unlines cut).count '\n' = cut.length := by
  induction cut with
  | nil => rfl
  | cons line cut ih =>
    obtain ⟨first, others⟩ := List.forall_mem_cons.mp oneLine
    simp [List.count_eq_zero_of_not_mem first, ih others]

theorem ne_newline_of_not_isLineEnd (inner : isLineEnd c = false) : c ≠ '\n' := by
  rintro rfl
  exact absurd inner (by decide)

theorem lines_newline (rest : Text) : lines ('\n' :: rest) = ['\n'] :: lines rest := rfl

theorem lines_return_newline (rest : Text) :
    lines ('\r' :: '\n' :: rest) = ['\r', '\n'] :: lines rest := rfl

theorem lines_cons (inner : isLineEnd c = false) (rest : Text) :
    lines (c :: rest) = (c :: (lines rest).headD []) :: (lines rest).tail := by
  rw [lines.eq_def (c :: rest)]
  split
  · contradiction
  · next same =>
    obtain ⟨rfl, -⟩ := List.cons.inj same
    exact absurd inner (by decide)
  · next same =>
    obtain ⟨rfl, rfl⟩ := List.cons.inj same
    rw [if_neg (by simp [inner])]
    cases lines rest <;> rfl

theorem lines_append (inner : ∀ c ∈ front, isLineEnd c = false)
    (nonempty : front ≠ [] ∨ lines rest ≠ []) :
    lines (front ++ rest) = (front ++ (lines rest).headD []) :: (lines rest).tail := by
  induction front with
  | nil =>
    have found := nonempty.resolve_left (by simp)
    rw [List.nil_append, List.nil_append, List.headD_eq_head?_getD, List.head?_eq_some_head found]
    exact (List.cons_head_tail found).symm
  | cons c front ih =>
    obtain ⟨first, others⟩ := List.forall_mem_cons.mp inner
    rw [List.cons_append, lines_cons first]
    by_cases more : front ≠ [] ∨ lines rest ≠ []
    · rw [ih others more]
      rfl
    · obtain ⟨rfl, noLine⟩ : front = [] ∧ lines rest = [] := by simpa using more
      simp [noLine]

theorem lines_line (plain : IsPlain line) (rest : Text) :
    lines (line ++ '\n' :: rest) = (line ++ ['\n']) :: lines rest := by
  by_cases last : line.getLast? = some '\r'
  · obtain ⟨content, rfl⟩ := List.getLast?_eq_some_iff.mp last
    have inner : ∀ c ∈ content, isLineEnd c = false := by simpa [IsPlain, withoutReturn] using plain
    rw [List.append_assoc, List.singleton_append,
      lines_append inner (by simp [lines_return_newline]), lines_return_newline]
    simp
  · have inner : ∀ c ∈ line, isLineEnd c = false := by
      rwa [IsPlain, withoutReturn, if_neg last] at plain
    rw [lines_append inner (by simp [lines_newline]), lines_newline]
    rfl

theorem lines_unlines (plain : ∀ line ∈ cut, IsPlain line) (rest : Text) :
    lines (unlines cut ++ rest) = cut.map (· ++ ['\n']) ++ lines rest := by
  induction cut with
  | nil => rfl
  | cons line cut ih =>
    obtain ⟨first, others⟩ := List.forall_mem_cons.mp plain
    rw [unlines_cons, List.append_assoc, List.cons_append, lines_line first, ih others, List.map_cons,
      List.cons_append]

theorem dropTrailing_append (absent : c ∉ front) (rest : Text) :
    (front ++ rest).dropTrailing c = front ++ rest.dropTrailing c := by
  have whole : front.reverse.dropWhile (· = c) = front.reverse := by
    rw [List.dropWhile_eq_self_iff]
    intro positive same
    apply absent
    rw [← of_decide_eq_true same, ← List.mem_reverse]
    exact List.getElem_mem positive
  rw [dropTrailing, List.reverse_append, List.dropWhile_append, whole]
  split
  · next none => simp [dropTrailing, List.isEmpty_iff.mp none]
  · simp [dropTrailing]

theorem mem_of_mem_dropTrailing {d : Char} (member : d ∈ text.dropTrailing c) : d ∈ text := by
  rw [dropTrailing, List.mem_reverse] at member
  exact List.mem_reverse.mp ((List.dropWhile_suffix _).mem member)

def shown (line : Text) : Text := (line.dropTrailing '\n').dropTrailing '\r'

theorem shown_append (inner : ∀ c ∈ front, isLineEnd c = false) (rest : Text) :
    shown (front ++ rest) = front ++ shown rest := by
  have noFeed : '\n' ∉ front := fun member => absurd (inner _ member) (by decide)
  have noReturn : '\r' ∉ front := fun member => absurd (inner _ member) (by decide)
  rw [shown, dropTrailing_append noFeed, dropTrailing_append noReturn]
  rfl

theorem exists_of_mem_lines (member : line ∈ lines text) :
    ∃ content, '\n' ∉ content ∧ (line = content ∨ line = content ++ ['\n']) := by
  fun_induction lines text generalizing line with
  | case1 => simp at member
  | case2 text ih =>
    rcases List.mem_cons.mp member with rfl | member
    · exact ⟨['\r'], by decide, .inr rfl⟩
    · exact ih member
  | case3 c text noReturn ending ih =>
    rcases List.mem_cons.mp member with rfl | member
    · by_cases feed : c = '\n'
      · exact ⟨[], by simp, .inr (by rw [feed]; rfl)⟩
      · exact ⟨[c], by simpa using Ne.symm feed, .inl rfl⟩
    · exact ih member
  | case4 c text noReturn inner noLine ih =>
    have different := ne_newline_of_not_isLineEnd (Bool.eq_false_of_not_eq_true inner)
    obtain rfl := List.mem_singleton.mp member
    exact ⟨[c], by simpa using different.symm, .inl rfl⟩
  | case5 c text noReturn inner first more cut ih =>
    have different := ne_newline_of_not_isLineEnd (Bool.eq_false_of_not_eq_true inner)
    rcases List.mem_cons.mp member with rfl | member
    -- `c` joins the first line of the rest
    · obtain ⟨content, oneLine, rfl | rfl⟩ := ih (cut ▸ List.mem_cons_self)
      · exact ⟨c :: first, by simp [different.symm, oneLine], .inl rfl⟩
      · exact ⟨c :: content, by simp [different.symm, oneLine], .inr rfl⟩
    · exact ih (cut ▸ List.mem_cons_of_mem _ member)

theorem newline_not_mem_shown (member : line ∈ lines text) : '\n' ∉ shown line := by
  intro feed
  have feed := mem_of_mem_dropTrailing feed
  obtain ⟨content, oneLine, rfl | rfl⟩ := exists_of_mem_lines member
  · exact oneLine (mem_of_mem_dropTrailing feed)
  · rw [dropTrailing_append oneLine] at feed
    simp [dropTrailing, oneLine] at feed

theorem shown_headD_lines (feed : ∀ c ∈ below.head?, c = '\n') :
    shown ((lines below).headD []) = [] ∧ shown ((lines ('\r' :: below)).headD []) = [] := by
  cases below with
  | nil => decide
  | cons c below =>
    obtain rfl : c = '\n' := feed c rfl
    rw [lines_newline, lines_return_newline]
    exact ⟨rfl, rfl⟩

theorem mem_withoutReturn (member : c ∈ line) (visible : c ≠ '\r') : c ∈ withoutReturn line := by
  by_cases last : line.getLast? = some '\r'
  · obtain ⟨content, rfl⟩ := List.getLast?_eq_some_iff.mp last
    simpa [withoutReturn, visible] using member
  · rwa [withoutReturn, if_neg last]

theorem shown_line (plain : IsPlain line) (nonempty : withoutReturn line ≠ [])
    (feed : ∀ c ∈ below.head?, c = '\n') :
    shown ((lines (line ++ below)).headD []) = withoutReturn line := by
  have cut : ∃ ending, line ++ below = withoutReturn line ++ ending ∧
      shown ((lines ending).headD []) = [] := by
    by_cases last : line.getLast? = some '\r'
    · obtain ⟨content, rfl⟩ := List.getLast?_eq_some_iff.mp last
      exact ⟨'\r' :: below, by simp [withoutReturn], (shown_headD_lines feed).2⟩
    · exact ⟨below, by rw [withoutReturn, if_neg last], (shown_headD_lines feed).1⟩
  obtain ⟨ending, cut, hidden⟩ := cut
  rw [cut, lines_append plain (.inl nonempty), List.headD_cons, shown_append plain, hidden,
    List.append_nil]

end ScriptLiterals.Text
