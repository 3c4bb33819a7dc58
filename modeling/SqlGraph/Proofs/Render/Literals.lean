import Mathlib.Data.List.Basic
import SqlGraph.Render.Inline

/-!
# String literals keep their contents in

A string literal ends at the first quote that is not doubled. Its reader takes exactly what is
written for some contents: the contents with their quotes doubled, between two quotes and with no
third one behind them (`Text.readLiteral_eq_some_iff`). So a value written as a literal can neither
end it early nor reach into the text behind it, whatever quotes the value has: reading the literal
gives the value and stops before what follows, as long as that does not open with a quote itself,
and different strings have different literals (`Inline.readLiteral_piece_iff`).
-/

namespace SqlGraph

namespace Text

/-! ## Reading on inside a literal -/

theorem readQuoted_of_ne {c : Char} (hc : c ≠ '\'') (rest : List Char) :
    readQuoted (c :: rest) = (readQuoted rest).map fun (s, r) => (c :: s, r) := by
  rw [readQuoted.eq_3 c rest (fun _ h _ => hc h), if_neg hc]

theorem readQuoted_doubled (rest : List Char) :
    readQuoted ('\'' :: '\'' :: rest) = (readQuoted rest).map fun (s, r) => ('\'' :: s, r) := by
  rw [readQuoted]

/-- A quote that is not doubled closes the literal. -/
theorem readQuoted_closing {rest : List Char} (h : rest.head? ≠ some '\'') :
    readQuoted ('\'' :: rest) = some ([], rest) := by
  have hsingle : ∀ more, rest = '\'' :: more → False := fun more heq => h (heq ▸ rfl)
  rw [readQuoted.eq_3 '\'' rest fun more _ heq => hsingle more heq, if_pos rfl]

/-- Contents are read back whatever comes behind them. -/
theorem readQuoted_doubleQuotes (s rest : List Char) :
    readQuoted (doubleQuotes s ++ rest) = (readQuoted rest).map fun (s', r) => (s ++ s', r) := by
  induction s with
  | nil => exact Option.map_id'.symm
  | cons c s ih =>
    unfold doubleQuotes
    by_cases hc : c = '\''
    · rw [if_pos hc, List.cons_append, List.cons_append, readQuoted_doubled, ih, Option.map_map, hc]
      rfl
    · rw [if_neg hc, List.cons_append, readQuoted_of_ne hc, ih, Option.map_map]
      rfl

/-- What was read was written: the contents with their quotes doubled, and the quote that closes. -/
theorem eq_of_readQuoted {t s rest : List Char} (h : readQuoted t = some (s, rest)) :
    t = doubleQuotes s ++ '\'' :: rest ∧ rest.head? ≠ some '\'' := by
  -- the text ends early, opens with a doubled quote, with one that closes, or with something else
  fun_induction readQuoted t generalizing s with
  | case1 => cases h
  | case2 more ih =>
    obtain ⟨⟨s', r⟩, hmore, heq⟩ := Option.map_eq_some_iff.mp h
    cases heq
    obtain ⟨rfl, hrest⟩ := ih hmore
    exact ⟨by simp [doubleQuotes], hrest⟩
  | case3 more hsingle =>
    cases h
    refine ⟨rfl, fun hhead => ?_⟩
    obtain ⟨tail, rfl⟩ := List.head?_eq_some_iff.mp hhead
    exact hsingle tail rfl rfl
  | case4 c more _ hc ih =>
    obtain ⟨⟨s', r⟩, hmore, heq⟩ := Option.map_eq_some_iff.mp h
    cases heq
    obtain ⟨rfl, hrest⟩ := ih hmore
    exact ⟨by simp [doubleQuotes, hc], hrest⟩

/-! ## Literals -/

/-- The reader takes a literal just when its contents are written with their quotes doubled and no
quote follows it. -/
theorem readLiteral_eq_some_iff {t s rest : List Char} :
    readLiteral t = some (s, rest) ↔
      t = '\'' :: (doubleQuotes s ++ '\'' :: rest) ∧ rest.head? ≠ some '\'' := by
  constructor
  · intro h
    unfold readLiteral at h
    split at h
    · obtain ⟨rfl, hrest⟩ := eq_of_readQuoted h
      exact ⟨rfl, hrest⟩
    · cases h
  · rintro ⟨rfl, hrest⟩
    show readQuoted (doubleQuotes s ++ '\'' :: rest) = _
    rw [readQuoted_doubleQuotes, readQuoted_closing hrest]
    simp

theorem toList_quote_append (s rest : String) :
    (quote s ++ rest).toList = '\'' :: (doubleQuotes s.toList ++ '\'' :: rest.toList) := by
  simp [quote, String.toList_append]

/-- A quoted string is read back, and nothing of what follows it. -/
theorem readLiteral_quote_iff (s rest : String) :
    readLiteral (quote s ++ rest).toList = some (s.toList, rest.toList) ↔
      rest.toList.head? ≠ some '\'' := by
  rw [readLiteral_eq_some_iff, toList_quote_append]
  exact and_iff_right rfl

theorem quote_injective : Function.Injective quote := by
  intro s s' h
  have hread : ∀ s : String, readLiteral (quote s ++ "").toList = some (s.toList, []) :=
    fun s => (readLiteral_quote_iff s "").mpr (by simp)
  have hsame := (hread s).symm.trans (h ▸ hread s')
  exact String.toList_injective (congrArg Prod.fst (Option.some.inj hsame))

end Text

/-- The literal of a string cannot be broken out of. Read where it stands, it gives the string and
nothing of the text that follows, exactly when that text does not open with a quote; the literal of
an object gives its text in the same way. So different strings have different literals, and so have
objects of different text. -/
theorem Inline.readLiteral_piece_iff :
    (∀ s rest : String,
      Text.readLiteral (Inline.piece (.value (.string s)) ++ rest).toList =
        some (s.toList, rest.toList) ↔ rest.toList.head? ≠ some '\'') ∧
    (∀ (members : List (String × Json)) (rest : String),
      Text.readLiteral (Inline.piece (.value (.object members)) ++ rest).toList =
        some ((Json.object members).text.toList, rest.toList) ↔ rest.toList.head? ≠ some '\'') ∧
    (∀ s s' : String,
      Inline.piece (.value (.string s)) = Inline.piece (.value (.string s')) ↔ s = s') ∧
    (∀ members members' : List (String × Json),
      Inline.piece (.value (.object members)) = Inline.piece (.value (.object members')) ↔
        (Json.object members).text = (Json.object members').text) := by
  have hstring (s : String) : Inline.piece (.value (.string s)) = Text.quote s := by
    rw [Inline.piece, Json.literal]
  have hobject (members : List (String × Json)) :
      Inline.piece (.value (.object members)) = Text.quote (Json.object members).text := by
    rw [Inline.piece, Json.literal]
  simp only [hstring, hobject]
  exact ⟨Text.readLiteral_quote_iff, fun members => Text.readLiteral_quote_iff _,
    fun _ _ => Text.quote_injective.eq_iff, fun _ _ => Text.quote_injective.eq_iff⟩

/-- A string that tries to end its literal and go on as a condition. -/
example : Text.readLiteral ("''' or ''1''=''1' and t.b".toList) =
    some ("' or '1'='1".toList, " and t.b".toList) := by decide

end SqlGraph
