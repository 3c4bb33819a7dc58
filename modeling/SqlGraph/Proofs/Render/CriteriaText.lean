import SqlGraph.Proofs.Query.NormalForm
import SqlGraph.Proofs.Template.Places
import SqlGraph.Render.Context

/-!
# The text of criteria keeps their structure

Writing a chain of criteria is injective up to its normal form: chains of words have the same text
exactly when they have the same normal form (`criteria_text_eq_iff`).

One direction is that neither step of the normal form changes what is written, whatever the criteria
(`criteria_normal`). The other reads the text of a pruned chain from the left. The text of a
criterion goes on until a space, a closing parenthesis or the end (`Stops`), the text of a chain
until a closing parenthesis or the end (`Closes`), so what follows is the same for two chains that
start the same text (`Link.combinedAll_of_chars`).
-/

namespace SqlGraph

open Render

variable (ctx : Context) (scopes : Scopes)

/-! ## The normal form is written the same -/

namespace Render

mutual

/-- Links without conditions are not written anyway. -/
theorem criterion_pruned (k : Criterion) :
    criterion ctx scopes k.pruned = criterion ctx scopes k := by
  cases k with
  | compare left condition => rfl
  | raw fragments => rfl
  | nested chain => simp only [Criterion.pruned, criterion, links_prunedAll true chain]

theorem links_prunedAll (first : Bool) (chain : List Link) :
    links ctx scopes first (Link.prunedAll chain) = links ctx scopes first chain := by
  cases chain with
  | nil => rfl
  | cons link rest =>
    obtain ⟨c, k⟩ := link
    rw [Link.prunedAll]
    cases hconditions : k.hasConditions with
    | false => simpa [links, hconditions] using links_prunedAll first rest
    | true =>
      have hkept := k.hasConditions_pruned.trans hconditions
      have hk := criterion_pruned k
      have hrest := links_prunedAll false rest
      simp [links, hconditions, hkept, hk, hrest]

end

mutual

/-- Combinators are written as they are spelled out. -/
theorem criterion_combined (k : Criterion) :
    criterion ctx scopes k.combined = criterion ctx scopes k := by
  cases k with
  | compare left condition => rfl
  | raw fragments => rfl
  | nested chain =>
    have hchain := links_combinedAll true true chain fun h => h
    simp only [Criterion.combined, criterion, hchain]

/-- The combinator that is forgotten is not written: what is the first link of a chain is also the
first one written, if it is written at all. -/
theorem links_combinedAll (first written : Bool) (chain : List Link)
    (h : first = true → written = true) :
    links ctx scopes written (Link.combinedAll first chain) = links ctx scopes written chain := by
  cases chain with
  | nil => rfl
  | cons link rest =>
    obtain ⟨c, k⟩ := link
    have hconditions := k.hasConditions_combined
    have hk := criterion_combined k
    have hskipped := links_combinedAll false written rest (by simp)
    have hrest := links_combinedAll false false rest (by simp)
    cases first with
    | true =>
      obtain rfl := h rfl
      simp [links, Link.combinedAll, hconditions, hk, hskipped, hrest]
    | false => simp [links, Link.combinedAll, combinator, hconditions, hk, hskipped, hrest]

end

/-- A chain is written like its normal form. -/
theorem criteria_normal (cs : Criteria) :
    criteria ctx scopes cs.normal = criteria ctx scopes cs :=
  (links_combinedAll ctx scopes true true _ fun h => h).trans (links_prunedAll ctx scopes true cs)

end Render

/-! ## Characters -/

/-- The characters written for a criterion. -/
def Criterion.chars (k : Criterion) : List Char := (Inline.text (criterion ctx scopes k)).toList

/-- The characters written for links. -/
def Link.chars (first : Bool) (chain : List Link) : List Char :=
  (Inline.text (links ctx scopes first chain)).toList

/-- The characters between two links. -/
def Combinator.chars (c : Combinator) : List Char := ' ' :: (c.keyword.toList ++ [' '])

theorem Criterion.chars_word (w : String) :
    Criterion.chars ctx scopes (.raw [.text w]) = w.toList := by
  simp [Criterion.chars, criterion, fragmentList, fragment, Inline.text, Inline.piece]

theorem Criterion.chars_nested (chain : List Link) :
    Criterion.chars ctx scopes (.nested chain) =
      '(' :: (Link.chars ctx scopes true chain ++ [')']) := by
  have hopen : Inline.text [.text "("] = "(" := rfl
  have hclose : Inline.text [.text ")"] = ")" := rfl
  have htext : Inline.text (criterion ctx scopes (.nested chain)) =
      "(" ++ Inline.text (links ctx scopes true chain) ++ ")" := by
    rw [← hopen, ← hclose, ← Inline.text_append, ← Inline.text_append]
    rfl
  rw [Criterion.chars, htext, String.toList_append, String.toList_append]
  rfl

theorem Link.chars_cons {first : Bool} {c : Option Combinator} {k : Criterion} {rest : List Link}
    (h : k.hasConditions = true) :
    Link.chars ctx scopes first (.mk c k :: rest) =
      (if first then [] else (c.getD .and).chars) ++ k.chars ctx scopes ++
        Link.chars ctx scopes false rest := by
  have hcombinator : (Inline.text (Render.combinator c)).toList = (c.getD .and).chars := by
    simp [Inline.text, Render.combinator, Combinator.chars, Inline.piece]
  cases first <;>
    simp [Link.chars, Criterion.chars, links, h, Inline.text_append, hcombinator]

/-! ## Reading -/

namespace Text

/-- What follows a criterion: nothing, a space or a closing parenthesis. -/
def Stops (r : List Char) : Prop := ∀ c ∈ r.head?, c = ' ' ∨ c = ')'

/-- What follows a chain: nothing, or a closing parenthesis. -/
def Closes (r : List Char) : Prop := ∀ c ∈ r.head?, c = ')'

theorem Closes.stops {r : List Char} (h : Closes r) : Stops r := fun c hc => .inr (h c hc)

theorem stops_space (r : List Char) : Stops (' ' :: r) := by simp [Stops]

theorem closes_parenthesis (r : List Char) : Closes (')' :: r) := by simp [Closes]

/-- A word is what stands before the first character that ends one. -/
theorem IsWord.takeWhile_append {w : String} (h : IsWord w) {r : List Char} (hr : Stops r) :
    (w.toList ++ r).takeWhile (fun c => !endsWord c) = w.toList := by
  have hstop : r.takeWhile (fun c => !endsWord c) = [] := by
    cases r with
    | nil => rfl
    | cons c rest =>
      obtain rfl | rfl := hr c rfl <;> rfl
  rw [List.takeWhile_append_of_pos fun c hc => by simpa using h.2 c hc, hstop, List.append_nil]

/-- A word at the start of a text is read back, together with what follows it. -/
theorem IsWord.eq_of_append {w w' : String} (h : IsWord w) (h' : IsWord w') {r r' : List Char}
    (hr : Stops r) (hr' : Stops r') (heq : w.toList ++ r = w'.toList ++ r') : w = w' ∧ r = r' := by
  have hword : w.toList = w'.toList := by
    rw [← h.takeWhile_append hr, heq, h'.takeWhile_append hr']
  rw [hword] at heq
  exact ⟨String.toList_inj.mp hword, List.append_cancel_left heq⟩

/-- A word starts with a character that does not end it. -/
theorem IsWord.exists_cons {w : String} (h : IsWord w) :
    ∃ c rest, w.toList = c :: rest ∧ ¬ endsWord c := by
  obtain ⟨c, rest, hw⟩ := List.exists_cons_of_ne_nil h.1
  exact ⟨c, rest, hw, h.2 c (by simp [hw])⟩

end Text

open Text

/-- The text of a readable criterion starts, and not where that of a chain ends. -/
theorem Criterion.Readable.not_closes {k : Criterion} (h : k.Readable) (r : List Char) :
    ¬ Closes (k.chars ctx scopes ++ r) := by
  intro hcloses
  obtain ⟨w, rfl, hw⟩ | ⟨chain, rfl, -⟩ := h.cases
  · obtain ⟨c, rest, hchars, hc⟩ := hw.exists_cons
    rw [Criterion.chars_word, hchars] at hcloses
    obtain rfl := hcloses c rfl
    exact hc rfl
  · rw [Criterion.chars_nested] at hcloses
    exact absurd (hcloses '(' rfl) (by decide)

/-- After the first link, a chain goes on with a space or is over. -/
theorem Link.AllReadable.stops {chain : List Link} (h : Link.AllReadable chain) {r : List Char}
    (hr : Closes r) : Stops (Link.chars ctx scopes false chain ++ r) := by
  cases chain with
  | nil => exact hr.stops
  | cons link rest =>
    obtain ⟨c, k⟩ := link
    rw [Link.chars_cons ctx scopes h.1.hasConditions]
    exact stops_space _

/-- A readable link starts where a chain does not end, with its combinator or without. -/
theorem Link.AllReadable.not_closes {first : Bool} {link : Link} {rest : List Link}
    (h : Link.AllReadable (link :: rest)) (r : List Char) :
    ¬ Closes (Link.chars ctx scopes first (link :: rest) ++ r) := by
  obtain ⟨c, k⟩ := link
  rw [Link.chars_cons ctx scopes h.1.hasConditions]
  cases first with
  | true => simpa using h.1.not_closes ctx scopes _
  | false => exact fun hcloses => absurd (hcloses ' ' rfl) (by decide)

/-- Combinators are read off their first letters. -/
theorem Combinator.eq_of_append {c c' : Combinator} {r r' : List Char}
    (heq : c.chars ++ r = c'.chars ++ r') : c = c' ∧ r = r' := by
  cases c <;> cases c' <;> simp_all [Combinator.chars, Combinator.keyword]

mutual

/-- Readable criteria whose texts start the same combine the same, and the texts go on the same. -/
theorem Criterion.combined_of_chars {k k' : Criterion} (h : k.Readable) (h' : k'.Readable)
    {r r' : List Char} (hr : Stops r) (hr' : Stops r')
    (heq : k.chars ctx scopes ++ r = k'.chars ctx scopes ++ r') :
    k.combined = k'.combined ∧ r = r' := by
  match k, h with
  | .raw [.text w], h =>
    obtain ⟨w', rfl, hw'⟩ | ⟨chain', rfl, -⟩ := h'.cases
    · rw [Criterion.chars_word, Criterion.chars_word] at heq
      obtain ⟨rfl, hrest⟩ := IsWord.eq_of_append h hw' hr hr' heq
      exact ⟨rfl, hrest⟩
    · obtain ⟨c, rest, hchars, hc⟩ := IsWord.exists_cons h
      rw [Criterion.chars_word, Criterion.chars_nested, hchars] at heq
      obtain ⟨rfl, -⟩ := List.cons.inj heq
      exact absurd rfl hc
  | .nested chain, ⟨_, h⟩ =>
    obtain ⟨w', rfl, hw'⟩ | ⟨chain', rfl, -, h'⟩ := h'.cases
    · obtain ⟨c, rest, hchars, hc⟩ := hw'.exists_cons
      rw [Criterion.chars_word, Criterion.chars_nested, hchars] at heq
      obtain ⟨rfl, -⟩ := List.cons.inj heq
      exact absurd rfl hc
    · simp only [Criterion.chars_nested, List.cons_append, List.append_assoc, List.cons.injEq,
        true_and] at heq
      obtain ⟨hchain, hrest⟩ := Link.combinedAll_of_chars h h' (closes_parenthesis _)
        (closes_parenthesis _) heq
      exact ⟨congrArg Criterion.nested hchain, (List.cons.inj hrest).2⟩

theorem Link.combinedAll_of_chars {first : Bool} {chain chain' : List Link}
    (h : Link.AllReadable chain) (h' : Link.AllReadable chain') {r r' : List Char}
    (hr : Closes r) (hr' : Closes r')
    (heq : Link.chars ctx scopes first chain ++ r = Link.chars ctx scopes first chain' ++ r') :
    Link.combinedAll first chain = Link.combinedAll first chain' ∧ r = r' := by
  match chain, chain', h, h' with
  | [], [], _, _ => exact ⟨rfl, heq⟩
  | [], link' :: rest', _, h' =>
    have hstart : r = Link.chars ctx scopes first (link' :: rest') ++ r' := heq
    rw [hstart] at hr
    exact absurd hr (h'.not_closes ctx scopes r')
  | link :: rest, [], h, _ =>
    have hstart : Link.chars ctx scopes first (link :: rest) ++ r = r' := heq
    rw [← hstart] at hr'
    exact absurd hr' (h.not_closes ctx scopes r)
  | .mk c k :: rest, .mk c' k' :: rest', ⟨hk, hrest⟩, ⟨hk', hrest'⟩ =>
    rw [Link.chars_cons ctx scopes hk.hasConditions, Link.chars_cons ctx scopes hk'.hasConditions]
      at heq
    -- the combinators first, if they are written, then the criteria, then the rest of the chains
    have hcombinator : first = false → c.getD .and = c'.getD .and := by
      rintro rfl
      simp only [List.append_assoc] at heq
      exact (Combinator.eq_of_append heq).1
    have hcriteria : k.chars ctx scopes ++ (Link.chars ctx scopes false rest ++ r) =
        k'.chars ctx scopes ++ (Link.chars ctx scopes false rest' ++ r') := by
      cases first with
      | true => simpa using heq
      | false => simpa [hcombinator rfl] using heq
    obtain ⟨hcombined, hafter⟩ := Criterion.combined_of_chars hk hk' (hrest.stops ctx scopes hr)
      (hrest'.stops ctx scopes hr') hcriteria
    obtain ⟨hlinks, hremaining⟩ := Link.combinedAll_of_chars hrest hrest' hr hr' hafter
    refine ⟨?_, hremaining⟩
    cases first with
    | true => simp [Link.combinedAll, hcombined, hlinks]
    | false => simp [Link.combinedAll, hcombined, hlinks, hcombinator rfl]

end

/-- Chains of words have the same text exactly when they have the same normal form. -/
theorem Render.criteria_text_eq_iff {a b : Criteria} (ha : Link.AllWords a)
    (hb : Link.AllWords b) :
    Inline.text (criteria ctx scopes a) = Inline.text (criteria ctx scopes b) ↔
      a.normal = b.normal := by
  constructor
  · intro htext
    have hpruned : Link.chars ctx scopes true (Link.prunedAll a) =
        Link.chars ctx scopes true (Link.prunedAll b) := by
      unfold Link.chars
      rw [links_prunedAll, links_prunedAll]
      exact congrArg String.toList htext
    have hend : Closes [] := by simp [Closes]
    exact (Link.combinedAll_of_chars ctx scopes ha.readable_prunedAll hb.readable_prunedAll hend
      hend (by simpa using hpruned)).1
  · intro hnormal
    rw [← criteria_normal ctx scopes a, hnormal, criteria_normal]

/-- One word as a criterion. -/
private def word (w : String) : Criterion := .raw [.text w]

/-- `a or (b and c)`, with a combinator in front and a chain that is left out. -/
private def loose : Criteria :=
  [.mk (some .or) (.nested [.mk none (.nested [])]), .mk (some .and) (word "a"),
    .mk (some .or) (.nested [.mk none (word "b"), .mk none (word "c")])]

/-- `a or (b and c)`, as it is read. -/
private def tight : Criteria :=
  [.mk none (word "a"),
    .mk (some .or) (.nested [.mk none (word "b"), .mk (some .and) (word "c")])]

/-- `(a or b) and c`. -/
private def regrouped : Criteria :=
  [.mk none (.nested [.mk none (word "a"), .mk (some .or) (word "b")]),
    .mk (some .and) (word "c")]

/-- Words that are read the same have the same text, in another grouping they do not. -/
theorem Render.criteria_text_eq_iff_grouping :
    Link.AllWords loose ∧ Link.AllWords tight ∧ Link.AllWords regrouped ∧
      Inline.text (criteria (.ofCatalog ⟨[]⟩ id) [] loose) =
        Inline.text (criteria (.ofCatalog ⟨[]⟩ id) [] tight) ∧
      Inline.text (criteria (.ofCatalog ⟨[]⟩ id) [] loose) ≠
        Inline.text (criteria (.ofCatalog ⟨[]⟩ id) [] regrouped) := by
  have ha : (word "a").IsWords := ⟨by decide, by simp [Text.endsWord]⟩
  have hb : (word "b").IsWords := ⟨by decide, by simp [Text.endsWord]⟩
  have hc : (word "c").IsWords := ⟨by decide, by simp [Text.endsWord]⟩
  have hloose : Link.AllWords loose := ⟨⟨trivial, trivial⟩, ha, ⟨hb, hc, trivial⟩, trivial⟩
  have htight : Link.AllWords tight := ⟨ha, ⟨hb, hc, trivial⟩, trivial⟩
  have hregrouped : Link.AllWords regrouped := ⟨⟨ha, hb, trivial⟩, hc, trivial⟩
  refine ⟨hloose, htight, hregrouped, ?_, ?_⟩
  · exact (criteria_text_eq_iff _ _ hloose htight).mpr rfl
  · rw [Ne, criteria_text_eq_iff _ _ hloose hregrouped]
    simp [Criteria.normal, loose, regrouped, word, Link.prunedAll, Criterion.pruned,
      Link.combinedAll, Criterion.combined, Criterion.hasConditions, Link.anyConditions,
      Link.hasConditions]

end SqlGraph
