import Mathlib.Data.List.Induction
import Mathlib.Data.List.Nodup

/-!
# Lists in order

What is said of an item by the items before it: the first occurrences of a list (`eraseDups`), and
the items of a list each with those before it (`mapIdx_take_concat`). Both grow at the end with the
list. An item that is kept as the k-th is found behind k others that are kept
(`exists_split_of_getElem?_filterMap`).
-/

namespace SqlGraph

section Repetitions

variable {β : Type} (r : β → β → Bool)

private theorem eraseDupsBy_loop_concat (l : List β) (b : β) (seen : List β) :
    List.eraseDupsBy.loop r (l ++ [b]) seen =
      if (List.eraseDupsBy.loop r l seen).any (r b) then List.eraseDupsBy.loop r l seen
      else List.eraseDupsBy.loop r l seen ++ [b] := by
  induction l generalizing seen with
  | nil =>
    cases hseen : seen.any (r b) with
    | true => simp [List.eraseDupsBy.loop, hseen]
    | false => simp [List.eraseDupsBy.loop, hseen]
  | cons c rest ih =>
    rw [List.cons_append, List.eraseDupsBy.loop, List.eraseDupsBy.loop]
    split
    · exact ih seen
    · exact ih (c :: seen)

/-- One more item is listed when it repeats none that is listed, whatever counts as a repetition. -/
theorem eraseDupsBy_concat (l : List β) (b : β) :
    (l ++ [b]).eraseDupsBy r =
      if (l.eraseDupsBy r).any (r b) then l.eraseDupsBy r else l.eraseDupsBy r ++ [b] :=
  eraseDupsBy_loop_concat r l b []

end Repetitions

section FirstOccurrences

variable {β : Type} [BEq β] [LawfulBEq β]

/-- One more item is listed when it did not occur before. -/
theorem eraseDups_concat (l : List β) (b : β) :
    (l ++ [b]).eraseDups = if l.contains b then l.eraseDups else l.eraseDups ++ [b] := by
  rw [List.eraseDups_append]
  by_cases hmem : l.contains b = true
  · have hremoved : [b].removeAll l = [] := by simpa [List.removeAll] using hmem
    rw [hremoved, if_pos hmem]
    exact List.append_nil _
  · have hkept : [b].removeAll l = [b] := by simpa [List.removeAll] using hmem
    rw [hkept, if_neg hmem]
    rfl

theorem nodup_eraseDups (l : List β) : l.eraseDups.Nodup := by
  induction l using List.reverseRecOn with
  | nil => exact List.nodup_nil
  | append_singleton rest b ih =>
    rw [eraseDups_concat]
    split
    · exact ih
    · rename_i hnew
      refine ih.append (List.nodup_singleton b) ?_
      intro c hc hsingle
      obtain rfl := List.mem_singleton.mp hsingle
      exact hnew (List.contains_iff_mem.mpr (List.mem_eraseDups.mp hc))

/-- A list without repetitions is the list of its first occurrences. -/
theorem eraseDups_of_nodup {l : List β} (h : l.Nodup) : l.eraseDups = l := by
  induction l using List.reverseRecOn with
  | nil => rfl
  | append_singleton rest b ih =>
    obtain ⟨hrest, -, hdisjoint⟩ := List.nodup_append.mp h
    have hnew : ¬ rest.contains b = true := fun hmem =>
      hdisjoint b (List.contains_iff_mem.mp hmem) b (List.mem_singleton_self b) rfl
    rw [eraseDups_concat, if_neg hnew, ih hrest]

/-- The first item with a property occurs first before all later ones. -/
theorem find?_eraseDups (test : β → Bool) (l : List β) : l.eraseDups.find? test = l.find? test := by
  induction l using List.reverseRecOn with
  | nil => rfl
  | append_singleton rest b ih =>
    rw [eraseDups_concat, List.find?_append]
    split
    · rename_i hold
      -- an item that occurred before is not the first of its kind
      have hmem : b ∈ rest := List.contains_iff_mem.mp hold
      cases htest : test b with
      | false => simp [ih, htest]
      | true =>
        have hsome : (rest.find? test).isSome = true := List.find?_isSome.mpr ⟨b, hmem, htest⟩
        rw [ih, Option.or_of_isSome hsome]
    · rw [List.find?_append, ih]

end FirstOccurrences

/-- One more item is seen with all items before it, and the others are seen as before. -/
theorem mapIdx_take_concat {β γ : Type} (f : List β → β → γ) (l : List β) (b : β) :
    (l ++ [b]).mapIdx (fun i c => f ((l ++ [b]).take i) c) =
      l.mapIdx (fun i c => f (l.take i) c) ++ [f l b] := by
  have hfront : l.mapIdx (fun i c => f ((l ++ [b]).take i) c) =
      l.mapIdx (fun i c => f (l.take i) c) := by
    refine List.ext_getElem (by simp) fun i hi _ => ?_
    have hle : i ≤ l.length := Nat.le_of_lt (by simpa using hi)
    simp only [List.getElem_mapIdx, List.take_append_of_le_length hle]
  rw [List.mapIdx_concat, hfront, List.take_left]

/-- The item that is kept as the k-th has k items before it that are kept. -/
theorem exists_split_of_getElem?_filterMap {β γ : Type} {f : β → Option γ} {l : List β} {k : Nat}
    {c : γ} (h : (l.filterMap f)[k]? = some c) :
    ∃ before b after, l = before ++ b :: after ∧ f b = some c ∧ (before.filterMap f).length = k := by
  obtain ⟨hk, hc⟩ := List.getElem?_eq_some_iff.mp h
  have hsplit : l.filterMap f = (l.filterMap f).take k ++ c :: (l.filterMap f).drop (k + 1) := by
    rw [← hc, List.getElem_cons_drop, List.take_append_drop]
  obtain ⟨front, back, rfl, hfront, hback⟩ := List.filterMap_eq_append_iff.mp hsplit
  obtain ⟨left, b, after, rfl, hleft, hb, -⟩ := List.filterMap_eq_cons_iff.mp hback
  refine ⟨front ++ left, b, after, (List.append_assoc _ _ _).symm, hb, ?_⟩
  rw [List.filterMap_append, hfront, List.filterMap_eq_nil_iff.mpr hleft, List.append_nil,
    List.length_take, Nat.min_eq_left (Nat.le_of_lt hk)]

end SqlGraph
