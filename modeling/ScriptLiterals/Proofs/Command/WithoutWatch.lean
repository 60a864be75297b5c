import ScriptLiterals.Command.Arguments

/-!
A command line without its requests to watch. They stand for themselves: no option takes one for its
value, and so the other arguments are the same without them.

Main statements: one option (`takeOption_unwatched`), all words (`read_unwatched`), and
`Arguments.ofTexts_withoutWatch`.
-/

namespace ScriptLiterals.Command

variable {texts : List Text} {words : List Word} {word : Word} {text : Text}
  {attached : Option Text} {flag : Flag} {spelling : Spelling} {cluster : Cluster}
  {arguments : Arguments} {reader result : ArgumentReader} {next next' : Option Word} {took : Bool}

def Word.watch : Word := .option (.switch .watch) .long none

def asksToWatch (text : Text) : Bool :=
  match Word.ofText text with
  | .ok word => word = .watch
  | .error _ => false

/-- A command line without the words that ask to watch. Behind the mark that ends the options there
are none. -/
def withoutWatch : List Text → List Text
  | [] => []
  | text :: texts =>
    if text = Word.endMark then text :: texts
    else if asksToWatch text then withoutWatch texts
    else text :: withoutWatch texts

theorem bind_eq_ok_iff {ε α β : Type} {first : Except ε α} {next : α → Except ε β} {b : β} :
    first >>= next = .ok b ↔ ∃ a, first = .ok a ∧ next a = .ok b := by
  cases first <;> simp [bind, Except.bind]

theorem Flag.ofShort?_ne_watch (c : Char) : ofShort? c ≠ some (.switch .watch) := by
  intro found
  have letter := List.find?_some found
  simp [short?] at letter

namespace Word

def others (words : List Word) : List Word := words.filter (· ≠ watch)

theorem others_watch (words : List Word) : others (watch :: words) = others words := by
  simp [others]

theorem others_cons (words : List Word) (other : word ≠ watch) :
    others (word :: words) = word :: others words := by
  simp [others, other]

theorem others_plain (text : Text) (words : List Word) :
    others (plain text :: words) = plain text :: others words :=
  others_cons words (by simp [watch])

theorem others_unknown (text : Text) (words : List Word) :
    others (unknown text :: words) = unknown text :: others words :=
  others_cons words (by simp [watch])

theorem others_endOfOptions (words : List Word) :
    others (endOfOptions :: words) = endOfOptions :: others words :=
  others_cons words (by simp [watch])

theorem others_map_plain (texts : List Text) : others (texts.map plain) = texts.map plain := by
  simp [others, watch]

theorem others_of_head?_plain (present : words.head? = some (plain text)) :
    (others words).head? = some (plain text) ∧ (others words).tail = others words.tail := by
  rcases List.head?_eq_some_iff.mp present with ⟨behind, rfl⟩
  rw [others_plain]
  exact ⟨rfl, rfl⟩

theorem exists_of_ofTexts_cons (inner : text ≠ endMark)
    (read : ofTexts (text :: texts) = .ok words) :
    ∃ word more, ofText text = .ok word ∧ ofTexts texts = .ok more ∧ words = word :: more := by
  rw [ofTexts, if_neg inner] at read
  rcases bind_eq_ok_iff.mp read with ⟨word, one, others⟩
  rcases bind_eq_ok_iff.mp others with ⟨more, behind, whole⟩
  exact ⟨word, more, one, behind, (Except.ok.inj whole).symm⟩

theorem ofTexts_cons {more : List Word} (inner : text ≠ endMark) (one : ofText text = .ok word)
    (others : ofTexts texts = .ok more) : ofTexts (text :: texts) = .ok (word :: more) := by
  rw [ofTexts, if_neg inner, one, others]
  rfl

theorem ofTexts_withoutWatch (read : ofTexts texts = .ok words) :
    ofTexts (withoutWatch texts) = .ok (others words) := by
  induction texts generalizing words with
  | nil =>
    rcases Except.ok.inj read with rfl
    rfl
  | cons text texts ih =>
    by_cases mark : text = endMark
    · rw [ofTexts, if_pos mark] at read
      rcases Except.ok.inj read with rfl
      rw [withoutWatch, if_pos mark, ofTexts, if_pos mark, others_endOfOptions,
        others_map_plain]
    · rcases exists_of_ofTexts_cons mark read with ⟨word, more, one, behind, rfl⟩
      rw [withoutWatch, if_neg mark]
      by_cases asks : word = watch
      · have found : asksToWatch text = true := by simp [asksToWatch, one, asks]
        rw [if_pos found, asks, others_watch]
        exact ih behind
      · have found : ¬ asksToWatch text = true := by simp [asksToWatch, one, asks]
        rw [if_neg found, others_cons _ asks]
        exact ofTexts_cons mark one (ih behind)

theorem ofName?_ne_short_watch (name : Text) (given attached : Option Text) :
    ofName? name given ≠ some (option (.switch .watch) .short attached) := by
  unfold ofName?
  split
  · next c =>
    intro named
    rcases Option.map_eq_some_iff.mp named with ⟨flag, letter, same⟩
    rw [(Word.option.inj same).1] at letter
    exact Flag.ofShort?_ne_watch c letter
  · simp

theorem short_watch_not_mem_candidates (text : Text) (attached : Option Text) :
    option (.switch .watch) .short attached ∉ candidates text := by
  unfold candidates
  split
  · simp
  · next c rest _ =>
    intro member
    rcases Option.map_eq_some_iff.mp (Option.mem_toList.mp member) with ⟨flag, letter, same⟩
    rw [(Word.option.inj same).1] at letter
    exact Flag.ofShort?_ne_watch c letter
  · exact List.not_mem_nil

theorem ofText_cases (read : ofText text = .ok word) :
    (∃ name given, ofName? name given = some word) ∨ word ∈ candidates text ∨
      word = plain text ∨ word = unknown text := by
  unfold ofText at read
  split at read
  · simp only at read
    split at read
    · next found named =>
      rcases Except.ok.inj read with rfl
      rcases Option.or_eq_some_iff.mp named with first | ⟨-, second⟩
      · exact .inl ⟨_, _, first⟩
      · exact .inl ⟨_, _, second⟩
    · split at read
      · next found alone =>
        rcases Except.ok.inj read with rfl
        exact .inr (.inl (alone ▸ List.mem_singleton_self _))
      · have form := Except.ok.inj read
        split at form
        · exact .inr (.inr (.inl form.symm))
        · exact .inr (.inr (.inr form.symm))
      · simp at read
  · exact .inr (.inr (.inl (Except.ok.inj read).symm))

theorem ofText_ne_short_watch (text : Text) (attached : Option Text) :
    ofText text ≠ .ok (option (.switch .watch) .short attached) := by
  intro read
  rcases ofText_cases read with ⟨name, given, named⟩ | candidate | value | other
  · exact ofName?_ne_short_watch name given attached named
  · exact short_watch_not_mem_candidates text attached candidate
  · contradiction
  · contradiction

def WatchIsLong (words : List Word) : Prop :=
  ∀ attached, option (.switch .watch) .short attached ∉ words

theorem WatchIsLong.behind (long : WatchIsLong (word :: words)) : WatchIsLong words :=
  fun attached member => long attached (List.mem_cons_of_mem _ member)

theorem WatchIsLong.tail (long : WatchIsLong words) : WatchIsLong words.tail :=
  fun attached member => long attached (List.mem_of_mem_tail member)

theorem watchIsLong_of_ofTexts (read : ofTexts texts = .ok words) : WatchIsLong words := by
  intro attached
  induction texts generalizing words with
  | nil =>
    rcases Except.ok.inj read with rfl
    exact List.not_mem_nil
  | cons text texts ih =>
    by_cases mark : text = endMark
    · rw [ofTexts, if_pos mark] at read
      rcases Except.ok.inj read with rfl
      simp
    · rcases exists_of_ofTexts_cons mark read with ⟨word, more, one, behind, rfl⟩
      intro member
      rcases List.mem_cons.mp member with rfl | later
      · exact ofText_ne_short_watch text attached one
      · exact ih behind later

end Word

namespace Cluster

theorem watch_not_mem_single (other : flag ≠ .switch .watch) : .watch ∉ (single flag).switches := by
  cases flag with
  | switch switch =>
    intro member
    exact other (congrArg Flag.switch (List.mem_singleton.mp member).symm)
  | field field => exact List.not_mem_nil

theorem watch_not_mem_ofAttached (opened : ofAttached flag text = .ok cluster)
    (other : flag ≠ .switch .watch) : .watch ∉ cluster.switches := by
  induction text generalizing flag cluster with
  | nil =>
    cases flag with
    | switch switch => simp [ofAttached] at opened
    | field field =>
      rcases Except.ok.inj opened with rfl
      exact List.not_mem_nil
  | cons c rest ih =>
    cases flag with
    | field field =>
      rcases Except.ok.inj opened with rfl
      exact List.not_mem_nil
    | switch switch =>
      cases letter : Flag.ofShort? c with
      | none => simp [ofAttached, letter] at opened
      | some next =>
        -- the next switch is named by a letter, and watching has none
        have known : next ≠ .switch .watch := by
          intro asks
          exact Flag.ofShort?_ne_watch c (asks ▸ letter)
        have first : .watch ≠ switch := by
          intro asks
          exact other (asks ▸ rfl)
        simp only [ofAttached, letter] at opened
        split at opened
        · rcases Except.ok.inj opened with rfl
          exact List.not_mem_cons_of_ne_of_not_mem first (watch_not_mem_single known)
        · cases behind : ofAttached next rest with
          | error e => simp [behind, Except.map] at opened
          | ok found =>
            rw [behind] at opened
            rcases Except.ok.inj opened with rfl
            exact List.not_mem_cons_of_ne_of_not_mem first (ih behind known)

theorem watch_not_mem (opened : ofOption flag spelling attached = .ok cluster)
    (other : flag ≠ .switch .watch) : .watch ∉ cluster.switches := by
  unfold ofOption at opened
  split at opened
  · rcases Except.ok.inj opened with rfl
    exact watch_not_mem_single other
  · split at opened
    · exact watch_not_mem_ofAttached opened other
    · rcases Except.ok.inj opened with rfl
      exact List.not_mem_nil
    · contradiction

end Cluster

namespace Arguments

def unwatched (arguments : Arguments) : Arguments := { arguments with watch := false }

theorem setSwitch_unwatched (arguments : Arguments) {switch : Switch} (other : switch ≠ .watch) :
    arguments.unwatched.setSwitch switch = (arguments.setSwitch switch).map unwatched := by
  cases switch with
  | watch => contradiction
  | _ => rfl

theorem foldlM_setSwitch_unwatched (arguments : Arguments) {switches : List Switch}
    (others : .watch ∉ switches) :
    switches.foldlM setSwitch arguments.unwatched =
      (switches.foldlM setSwitch arguments).map unwatched := by
  induction switches generalizing arguments with
  | nil => rfl
  | cons switch switches ih =>
    rcases not_or.mp (mt List.mem_cons.mpr others) with ⟨first, behind⟩
    rw [List.foldlM_cons, List.foldlM_cons, setSwitch_unwatched _ (Ne.symm first)]
    cases arguments.setSwitch switch with
    | error halt => rfl
    | ok arguments => exact ih arguments behind

theorem setField_unwatched (arguments : Arguments) (field : Field) (value : Option Text) :
    arguments.unwatched.setField field value = (arguments.setField field value).map unwatched := by
  cases field with
  | width =>
    simp only [setField]
    cases widthOfValue value <;> rfl
  | _ => rfl

end Arguments

namespace ArgumentReader

def unwatched (reader : ArgumentReader) : ArgumentReader :=
  { reader with arguments := reader.arguments.unwatched }

theorem setSwitches_unwatched (reader : ArgumentReader) {switches : List Switch}
    (others : .watch ∉ switches) :
    reader.unwatched.setSwitches switches = (reader.setSwitches switches).map unwatched := by
  have folded : switches.foldlM Arguments.setSwitch reader.unwatched.arguments =
      (switches.foldlM Arguments.setSwitch reader.arguments).map Arguments.unwatched :=
    Arguments.foldlM_setSwitch_unwatched _ others
  rw [setSwitches, folded, setSwitches]
  cases switches.foldlM Arguments.setSwitch reader.arguments <;> rfl

theorem setField_unwatched (reader : ArgumentReader) (field : Field) (value : Option Text) :
    reader.unwatched.setField field value = (reader.setField field value).map unwatched := by
  have set : reader.unwatched.arguments.setField field value =
      (reader.arguments.setField field value).map Arguments.unwatched :=
    Arguments.setField_unwatched ..
  rw [setField, set, setField]
  cases reader.arguments.setField field value <;> rfl

/-- What the options of a word do behind their switches, and whether the next word goes with them. -/
inductive TakesRemainder (reader : ArgumentReader) (next : Option Word) :
    Remainder → ArgumentReader → Bool → Prop
  | nothing : TakesRemainder reader next .nothing reader false
  | value {field : Field} {value : Option Text} {result : ArgumentReader}
      (given : reader.setField field value = .ok result) :
      TakesRemainder reader next (.value field value) result false
  | awaited {field : Field} {text : Text} {result : ArgumentReader}
      (present : next = some (.plain text))
      (given : reader.setField field (some text) = .ok result) :
      TakesRemainder reader next (.awaited field) result true

theorem exists_of_takeCluster (taken : reader.takeCluster cluster next = .ok (result, took)) :
    ∃ set, reader.setSwitches cluster.switches = .ok set ∧
      set.TakesRemainder next cluster.remainder result took := by
  rcases cluster with ⟨switches, _ | ⟨field, value⟩ | field⟩
  · rcases bind_eq_ok_iff.mp taken with ⟨set, switched, rest⟩
    rcases Prod.mk.inj (Except.ok.inj rest) with ⟨rfl, rfl⟩
    exact ⟨set, switched, .nothing⟩
  · rcases bind_eq_ok_iff.mp taken with ⟨set, switched, rest⟩
    rcases bind_eq_ok_iff.mp rest with ⟨more, given, last⟩
    rcases Prod.mk.inj (Except.ok.inj last) with ⟨rfl, rfl⟩
    exact ⟨set, switched, .value given⟩
  · unfold takeCluster at taken
    simp only at taken
    split at taken
    · rcases bind_eq_ok_iff.mp taken with ⟨set, switched, rest⟩
      rcases bind_eq_ok_iff.mp rest with ⟨more, given, last⟩
      rcases Prod.mk.inj (Except.ok.inj last) with ⟨rfl, rfl⟩
      exact ⟨set, switched, .awaited rfl given⟩
    · contradiction

theorem takeCluster_of_takesRemainder {set : ArgumentReader}
    (switched : reader.setSwitches cluster.switches = .ok set)
    (takes : set.TakesRemainder next cluster.remainder result took) :
    reader.takeCluster cluster next = .ok (result, took) := by
  rcases cluster with ⟨switches, remainder⟩
  unfold takeCluster
  cases takes with
  | nothing => exact bind_eq_ok_iff.mpr ⟨_, switched, rfl⟩
  | value given =>
    exact bind_eq_ok_iff.mpr ⟨_, switched, bind_eq_ok_iff.mpr ⟨_, given, rfl⟩⟩
  | awaited present given =>
    rw [present]
    exact bind_eq_ok_iff.mpr ⟨_, switched, bind_eq_ok_iff.mpr ⟨_, given, rfl⟩⟩

theorem takeOption_eq_ok_iff :
    reader.takeOption flag spelling attached next = .ok (result, took) ↔
      ∃ cluster set, Cluster.ofOption flag spelling attached = .ok cluster ∧
        reader.setSwitches cluster.switches = .ok set ∧
        set.TakesRemainder next cluster.remainder result took := by
  unfold takeOption
  cases opened : Cluster.ofOption flag spelling attached with
  | error e => simp
  | ok cluster =>
    constructor
    · intro taken
      rcases exists_of_takeCluster taken with ⟨set, switched, takes⟩
      exact ⟨cluster, set, rfl, switched, takes⟩
    · rintro ⟨found, set, same, switched, takes⟩
      rcases Except.ok.inj same with rfl
      exact takeCluster_of_takesRemainder switched takes

theorem takeOption_unwatched (other : flag ≠ .switch .watch)
    (plain : ∀ text, next = some (.plain text) → next' = some (.plain text))
    (taken : reader.takeOption flag spelling attached next = .ok (result, took)) :
    reader.unwatched.takeOption flag spelling attached next' = .ok (result.unwatched, took) := by
  rcases takeOption_eq_ok_iff.mp taken with ⟨cluster, set, opened, switched, takes⟩
  have others := Cluster.watch_not_mem opened other
  apply takeOption_eq_ok_iff.mpr
  refine ⟨cluster, set.unwatched, opened, ?_, ?_⟩
  · rw [setSwitches_unwatched reader others, switched]
    rfl
  · generalize cluster.remainder = remainder at takes ⊢
    cases takes with
    | nothing => exact .nothing
    | value given =>
      apply TakesRemainder.value
      rw [setField_unwatched, given]
      rfl
    | awaited present given =>
      apply TakesRemainder.awaited (plain _ present)
      rw [setField_unwatched, given]
      rfl

theorem exists_plain_of_takeOption
    (taken : reader.takeOption flag spelling attached next = .ok (result, true)) :
    ∃ text, next = some (.plain text) := by
  rcases takeOption_eq_ok_iff.mp taken with ⟨cluster, set, -, -, takes⟩
  generalize cluster.remainder = remainder at takes
  cases takes with
  | awaited present given => exact ⟨_, present⟩

theorem takeOption_watch
    (taken : reader.takeOption (.switch .watch) .long attached next = .ok (result, took)) :
    attached = none ∧ took = false ∧ result.unwatched = reader.unwatched ∧
      result.inputTaken = reader.inputTaken := by
  cases attached with
  | some text => simp [takeOption, Cluster.ofOption] at taken
  | none =>
    rcases Prod.mk.inj (Except.ok.inj taken) with ⟨rfl, rfl⟩
    exact ⟨rfl, rfl, rfl, rfl⟩

theorem setField_keeps {field : Field} {value : Option Text}
    (given : reader.setField field value = .ok result) :
    result.extras = reader.extras ∧ result.inputTaken = reader.inputTaken := by
  rcases bind_eq_ok_iff.mp given with ⟨arguments, -, changed⟩
  rcases Except.ok.inj changed with rfl
  exact ⟨rfl, rfl⟩

theorem setSwitches_keeps {switches : List Switch}
    (given : reader.setSwitches switches = .ok result) :
    result.extras = reader.extras ∧ result.inputTaken = reader.inputTaken := by
  rcases bind_eq_ok_iff.mp given with ⟨arguments, -, changed⟩
  rcases Except.ok.inj changed with rfl
  exact ⟨rfl, rfl⟩

theorem takeOption_keeps
    (taken : reader.takeOption flag spelling attached next = .ok (result, took)) :
    result.extras = reader.extras ∧ result.inputTaken = reader.inputTaken := by
  rcases takeOption_eq_ok_iff.mp taken with ⟨cluster, set, -, switched, takes⟩
  rcases setSwitches_keeps switched with ⟨extras, inputTaken⟩
  rw [← extras, ← inputTaken]
  generalize cluster.remainder = remainder at takes
  cases takes with
  | nothing => exact ⟨rfl, rfl⟩
  | value given => exact setField_keeps given
  | awaited present given => exact setField_keeps given

theorem addExtra_ne_nil (reader : ArgumentReader) (text : Text) :
    (reader.addExtra text).extras ≠ [] :=
  List.append_ne_nil_of_right_ne_nil _ (List.cons_ne_nil _ _)

theorem extras_of_read (done : read reader words = .ok result) (clean : result.extras = []) :
    reader.extras = [] := by
  -- every case keeps what was collected or adds to it
  fun_induction read reader words with
  | case1 reader =>
    rcases Except.ok.inj done with rfl
    exact clean
  | case2 reader text rest mark ih => exact ih done
  | case3 reader text rest mark ih =>
    have before := ih done
    unfold takePlain at before
    split at before
    · exact absurd before (addExtra_ne_nil _ _)
    · exact before
  | case4 => contradiction
  | case5 reader flag spelling attached rest more taken ih =>
    rw [← (takeOption_keeps taken).1]
    exact ih done
  | case6 reader flag spelling attached rest more taken ih =>
    rw [← (takeOption_keeps taken).1]
    exact ih done
  | case7 reader text rest ih => exact absurd (ih done) (addExtra_ne_nil _ _)
  | case8 reader rest ih =>
    have before := ih done
    split at before
    · exact absurd before (addExtra_ne_nil _ _)
    · exact before

/-- Behind the input, a mark with nothing but requests to watch before it is collected. -/
theorem extras_ne_nil_of_mark (input : reader.inputTaken = true)
    (mark : (Word.others words).head? = some .endOfOptions)
    (done : read reader words = .ok result) : result.extras ≠ [] := by
  induction words generalizing reader with
  | nil => contradiction
  | cons word rest ih =>
    by_cases asks : word = .watch
    · rw [asks, Word.others_watch] at mark
      rw [asks, Word.watch, read] at done
      cases taken : reader.takeOption (.switch .watch) .long none rest.head? with
      | error halt => simp [taken] at done
      | ok step =>
        rcases step with ⟨more, took⟩
        rcases takeOption_watch taken with ⟨-, rfl, -, kept⟩
        simp only [taken] at done
        exact ih (kept.trans input) mark done
    · rw [Word.others_cons _ asks] at mark
      rcases Option.some.inj mark with rfl
      rw [read, if_pos input] at done
      intro clean
      exact addExtra_ne_nil _ _ (extras_of_read done clean)

theorem takePlain_unwatched (reader : ArgumentReader) (text : Text) :
    reader.unwatched.takePlain text = (reader.takePlain text).unwatched := by
  unfold takePlain
  split
  · rw [if_pos ‹_›]
    rfl
  · rw [if_neg ‹_›]
    rfl

theorem flag_ne_watch (long : Word.WatchIsLong (.option flag spelling attached :: words))
    (other : .option flag spelling attached ≠ Word.watch)
    (taken : reader.takeOption flag spelling attached next = .ok (result, took)) :
    flag ≠ .switch .watch := by
  rintro rfl
  cases spelling with
  | short => exact long attached List.mem_cons_self
  | long =>
    rcases takeOption_watch taken with ⟨rfl, -⟩
    exact other rfl

theorem read_unwatched (long : Word.WatchIsLong words) (done : read reader words = .ok result)
    (clean : result.extras = []) :
    read reader.unwatched (Word.others words) = .ok result.unwatched := by
  fun_induction read reader words with
  | case1 reader =>
    rcases Except.ok.inj done with rfl
    simp [Word.others, read]
  | case2 reader text rest mark ih =>
    have first : reader.inputTaken = false ∧ rest.head? = some .endOfOptions := by simpa using mark
    rcases List.head?_eq_some_iff.mp first.2 with ⟨more, rfl⟩
    rw [Word.others_plain, Word.others_endOfOptions, read,
      if_pos (by simpa [unwatched] using first.1)]
    exact ih long.behind.behind done
  | case3 reader text rest unmarked ih =>
    have same := ih long.behind done
    rw [Word.others_plain, read, if_neg, takePlain_unwatched]
    · exact same
    · -- a mark that comes to stand behind the input would have been collected
      intro mark
      have first : reader.inputTaken = false ∧ (Word.others rest).head? = some .endOfOptions := by
        simpa [unwatched] using mark
      have input : (reader.takePlain text).inputTaken = true := by
        simp [takePlain, first.1, takeInput]
      exact extras_ne_nil_of_mark input first.2 done clean
  | case4 => contradiction
  | case5 reader flag spelling attached rest more taken ih =>
    have same := ih long.behind.tail done
    have other : Word.option flag spelling attached ≠ .watch := by
      intro asks
      rcases Word.option.inj asks with ⟨rfl, rfl, rfl⟩
      rcases takeOption_watch taken with ⟨-, alone, -⟩
      contradiction
    rcases exists_plain_of_takeOption taken with ⟨text, present⟩
    rw [Word.others_cons _ other, read, takeOption_unwatched (flag_ne_watch long other taken)
      (fun _ present => (Word.others_of_head?_plain present).1) taken]
    change more.unwatched.read (Word.others rest).tail = _
    rw [(Word.others_of_head?_plain present).2]
    exact same
  | case6 reader flag spelling attached rest more taken ih =>
    have same := ih long.behind done
    by_cases asks : Word.option flag spelling attached = .watch
    · rw [asks, Word.others_watch]
      rcases Word.option.inj asks with ⟨rfl, rfl, rfl⟩
      rcases takeOption_watch taken with ⟨-, -, kept, -⟩
      rw [← kept]
      exact same
    · rw [Word.others_cons _ asks, read, takeOption_unwatched (flag_ne_watch long asks taken)
        (fun _ present => (Word.others_of_head?_plain present).1) taken]
      exact same
  | case7 reader text rest ih =>
    rw [Word.others_unknown, read]
    exact ih long.behind done
  | case8 reader rest ih =>
    have same := ih long.behind done
    rw [Word.others_endOfOptions, read]
    by_cases input : reader.inputTaken = true
    · rw [dif_pos input] at same
      rw [if_pos (by simpa [unwatched] using input)]
      exact same
    · rw [dif_neg input] at same
      rw [if_neg (by simpa [unwatched] using input)]
      exact same

end ArgumentReader

theorem Arguments.ofTexts_eq_ok_iff :
    ofTexts texts = .ok arguments ↔ ∃ words reader, Word.ofTexts texts = .ok words ∧
      ArgumentReader.read {} words = .ok reader ∧ reader.extras = [] ∧
        reader.arguments = arguments := by
  unfold ofTexts
  cases Word.ofTexts texts with
  | error e =>
    change Except.error _ = _ ↔ _
    simp
  | ok words =>
    change (ArgumentReader.read {} words >>= _) = _ ↔ _
    cases done : ArgumentReader.read {} words with
    | error halt => simp [bind, Except.bind, done]
    | ok reader => by_cases clean : reader.extras = [] <;> simp [bind, Except.bind, done, clean]

/-- Without the requests to watch, a command line has the same arguments but for the watching. -/
theorem Arguments.ofTexts_withoutWatch (parsed : ofTexts texts = .ok arguments) :
    ofTexts (withoutWatch texts) = .ok arguments.unwatched := by
  rcases ofTexts_eq_ok_iff.mp parsed with ⟨words, reader, split, done, clean, rfl⟩
  apply ofTexts_eq_ok_iff.mpr
  exact ⟨Word.others words, reader.unwatched, Word.ofTexts_withoutWatch split,
    ArgumentReader.read_unwatched (Word.watchIsLong_of_ofTexts split) done clean, clean, rfl⟩

end ScriptLiterals.Command
