import ScriptLiterals.Proofs.Conversion.Place
import ScriptLiterals.Proofs.Literal.Strictness

/-!
Converting a script under stricter options: the same integers are found, fewer of them may have a
value, and those that have one keep it.

Main statement: `stricter_only_rejects`.
-/

namespace ScriptLiterals.Conversion

/-- The conversion is about these tokens: some of them have values, the others have the errors, and
both are in the order of the tokens. -/
def IsAbout (conversion : Conversion) (source : Text) (tokens : List Token) : Prop :=
  ∃ accepts : Token → Bool, conversion.values.map Prod.fst = tokens.filter accepts ∧
    List.Forall₂ (BelongsTo source) conversion.errors (tokens.filter (!accepts ·))

theorem isAbout_integers (source : Text) (options : Options) :
    (ofSource source options).IsAbout source (integers source) := by
  refine ⟨fun token => (value? options token).isSome, ?_, ?_⟩
  · have tokens : (fun token => (value? options token).map Prod.fst) =
        Option.guard fun token => (value? options token).isSome := by
      funext token
      unfold value? Option.guard
      cases read : readLiteral token.text options <;> simp [read]
    rw [ofSource, List.map_filterMap, tokens, List.filterMap_eq_filter]
  · have errors : (fun token => !(value? options token).isSome) =
        fun token => (error? source options token).isSome := by
      funext token
      unfold value? error?
      cases readLiteral token.text options <;> rfl
    rw [errors]
    apply forall₂_filterMap
    intro token member e found
    exact belongsTo_of_error? member found

theorem filterMap_sublist {α β : Type} {first second : α → Option β}
    (agree : ∀ a b, first a = some b → second a = some b) (items : List α) :
    (items.filterMap first).Sublist (items.filterMap second) := by
  induction items with
  | nil => exact .slnil
  | cons a items ih =>
    cases found : first a with
    | none =>
      rw [List.filterMap_cons_none found]
      exact ih.trans ((List.sublist_cons_self a items).filterMap second)
    | some b =>
      rw [List.filterMap_cons_some found, List.filterMap_cons_some (agree a b found)]
      exact ih.cons_cons b

/-- Stricter options only reject. What they accept has the same value under looser options, and what
they refuse though looser options accept it is too great for the width, or has a separator out of
place, or has a leading zero. In a script they find the same integers, and of the values under looser
options they leave some out and change none. -/
theorem stricter_only_rejects {options looser : Options}
    (stricter : options.IsAtLeastAsStrict looser) :
    (∀ text value, readLiteral text options = .ok value → readLiteral text looser = .ok value) ∧
    (∀ text e value, readLiteral text options = .error e → readLiteral text looser = .ok value →
      e.IsDueToStrictness text options looser value) ∧
    ∀ source,
      ((ofSource source options).values).Sublist (ofSource source looser).values ∧
      (ofSource source options).IsAbout source (integers source) ∧
      (ofSource source looser).IsAbout source (integers source) := by
  refine ⟨?_, ?_, ?_⟩
  · intro text value read
    exact readLiteral_of_isAtLeastAsStrict stricter read
  · intro text e value refused read
    exact isDueToStrictness_of_readLiteral refused read
  · intro source
    refine ⟨?_, isAbout_integers source options, isAbout_integers source looser⟩
    apply filterMap_sublist
    intro token found accepted
    obtain ⟨same, read⟩ := value?_eq_some_iff.mp accepted
    apply value?_eq_some_iff.mpr
    exact ⟨same, readLiteral_of_isAtLeastAsStrict stricter read⟩

theorem stricter_only_rejects_for_three_reasons :
    let options : Options := ⟨.w8, .strict, false⟩
    options.IsAtLeastAsStrict {} ∧
      (ofSource "5 1__0 200 007 0x7f".toList options).values.Sublist
        (ofSource "5 1__0 200 007 0x7f".toList {}).values ∧
      (ofSource "5 1__0 200 007 0x7f".toList options).values.map Prod.snd = [5, 127] ∧
      (ofSource "5 1__0 200 007 0x7f".toList {}).values.map Prod.snd = [5, 10, 200, 7, 127] ∧
      LiteralError.IsDueToStrictness "200".toList options {} 200
        (.overflow "200".toList 2 .decimal 8) := by
  intro options
  have stricter : options.IsAtLeastAsStrict {} := ⟨by decide, .inl rfl, .inl rfl⟩
  obtain ⟨-, reasons, converts⟩ := stricter_only_rejects stricter
  refine ⟨stricter, (converts _).1, by decide +kernel, by decide +kernel, ?_⟩
  exact reasons "200".toList _ 200 (by decide +kernel) (by decide +kernel)

end ScriptLiterals.Conversion
