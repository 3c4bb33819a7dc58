import SqlGraph.Graph.Cursor

/-!
# The rows a cursor visits

Rows may be pushed onto a cursor while it is advanced. What it visits and what is still ahead of it
are, in order, the rows that were pushed while it was not exhausted (`visited_append_ahead`). A
cursor that is exhausted stands on the row pushed next, so it has a current row at once and the next
advance passes over it: such a row is never visited, and what follows it is.

The main statement is `visited_exact`; a cursor that is filled before it is exhausted visits every
row exactly once.
-/

namespace SqlGraph.Graph

/-- What is done with a cursor. -/
inductive CursorCall where
  | push (row : List Json)
  | advance

namespace Cursor

/-! ## Where a cursor stands -/

/-- Whether the cursor has been advanced past its last row. -/
def isExhausted (c : Cursor) : Bool := c.position == some c.rows.length

/-- The rows that the next advances meet. -/
def ahead (c : Cursor) : List (List Json) := c.rows.drop ((c.position.map (· + 1)).getD 0)

/-- The cursor stands before its first row, on a row or right behind its last one. -/
def Placed (c : Cursor) : Prop := ∀ p, c.position = some p → p ≤ c.rows.length

section Steps

variable {c : Cursor}

theorem Placed.push (h : c.Placed) (row : List Json) : (c.push row).Placed := by
  intro p hp
  have hle : p ≤ c.rows.length := h p hp
  rw [Cursor.push, List.length_append]
  exact Nat.le_add_right_of_le hle

theorem placed_advance (c : Cursor) : c.advance.2.Placed := by
  rintro p ⟨⟩
  exact Nat.min_le_right _ _

/-- Pushing a row gives an exhausted cursor that row, and any other cursor keeps its own. -/
theorem current_push (h : c.Placed) (row : List Json) :
    (c.push row).current = if c.isExhausted then .ok row else c.current := by
  unfold current push isExhausted
  cases hp : c.position with
  | none => rfl
  | some p =>
    obtain hlt | rfl := Nat.lt_or_eq_of_le (h p hp)
    · simp [List.getElem?_append_left hlt, Nat.ne_of_lt hlt]
    · simp

/-- A row that is pushed onto an exhausted cursor is not ahead of it. -/
theorem ahead_push (h : c.Placed) (row : List Json) :
    (c.push row).ahead = if c.isExhausted then c.ahead else c.ahead ++ [row] := by
  unfold ahead push isExhausted
  cases hp : c.position with
  | none => rfl
  | some p =>
    obtain hlt | rfl := Nat.lt_or_eq_of_le (h p hp)
    · simp [List.drop_append_of_le_length (Nat.succ_le_of_lt hlt), Nat.ne_of_lt hlt]
    · simp

/-- Advancing takes the first row that is ahead, and answers whether there is one. -/
theorem advance_cases (c : Cursor) :
    (∃ row rest, c.ahead = row :: rest ∧ c.advance.1 = true ∧ c.advance.2.current = .ok row ∧
      c.advance.2.ahead = rest) ∨
    (c.ahead = [] ∧ c.advance.1 = false ∧ c.advance.2.isExhausted = true ∧
      c.advance.2.ahead = []) := by
  unfold ahead advance isExhausted current
  generalize (c.position.map (· + 1)).getD 0 = next
  by_cases hlt : next < c.rows.length
  · refine .inl ⟨c.rows[next], c.rows.drop (next + 1), List.drop_eq_getElem_cons hlt, ?_⟩
    simp [hlt, Nat.min_eq_left (Nat.le_of_lt hlt)]
  · have hle : c.rows.length ≤ next := Nat.le_of_not_lt hlt
    exact .inr (by simp [hle, hlt])

end Steps

/-! ## Calls in a row -/

/-- The cursor after some calls. -/
def after (c : Cursor) : List CursorCall → Cursor
  | [] => c
  | .push row :: calls => (c.push row).after calls
  | .advance :: calls => c.advance.2.after calls

/-- The rows visited by some calls: those that are current where an advance finds a row. -/
def visited (c : Cursor) : List CursorCall → List (Except Error (List Json))
  | [] => []
  | .push row :: calls => (c.push row).visited calls
  | .advance :: calls =>
    (if c.advance.1 then [c.advance.2.current] else []) ++ c.advance.2.visited calls

/-- The rows pushed by some calls, each with whether the cursor was exhausted then. -/
def pushed (c : Cursor) : List CursorCall → List (List Json × Bool)
  | [] => []
  | .push row :: calls => (row, c.isExhausted) :: (c.push row).pushed calls
  | .advance :: calls => c.advance.2.pushed calls

/-- The rows pushed while the cursor was not exhausted. -/
def kept (c : Cursor) (calls : List CursorCall) : List (List Json) :=
  ((c.pushed calls).filter fun entry => !entry.2).map (·.1)

theorem Placed.after {c : Cursor} (h : c.Placed) (calls : List CursorCall) :
    (c.after calls).Placed := by
  induction calls generalizing c with
  | nil => exact h
  | cons call calls ih =>
    cases call with
    | push row => exact ih (h.push row)
    | advance => exact ih (placed_advance c)

theorem rows_after (c : Cursor) (calls : List CursorCall) :
    (c.after calls).rows = c.rows ++ (c.pushed calls).map (·.1) := by
  induction calls generalizing c with
  | nil => exact (List.append_nil _).symm
  | cons call calls ih =>
    cases call with
    | push row => exact (ih (c.push row)).trans (List.append_cons _ row _).symm
    | advance => exact ih c.advance.2

/-- What is visited and what is ahead afterwards are what was ahead before and what is pushed while
the cursor is not exhausted. -/
theorem visited_append_ahead {c : Cursor} (h : c.Placed) (calls : List CursorCall) :
    c.visited calls ++ (c.after calls).ahead.map .ok = (c.ahead ++ c.kept calls).map .ok := by
  induction calls generalizing c with
  | nil => simp [visited, after, kept, pushed]
  | cons call calls ih =>
    cases call with
    | push row =>
      have hahead := ahead_push h row
      rw [visited, after, ih (h.push row), hahead, kept, kept, pushed]
      cases c.isExhausted <;> simp
    | advance =>
      have hkept : c.kept (.advance :: calls) = c.advance.2.kept calls := rfl
      rw [visited, after, hkept, List.append_assoc, ih (placed_advance c)]
      obtain ⟨row, rest, hahead, hfound, hcurrent, hrest⟩ | ⟨hahead, hfound, -, hrest⟩ :=
        advance_cases c
      · simp [hahead, hfound, hcurrent, hrest]
      · simp [hahead, hfound, hrest]

/-- All that is pushed is kept when, and only when, nothing is pushed onto an exhausted cursor. -/
theorem kept_eq_pushed_iff (c : Cursor) (calls : List CursorCall) :
    c.kept calls = (c.pushed calls).map (·.1) ↔ ∀ entry ∈ c.pushed calls, entry.2 = false := by
  constructor
  · intro heq entry hentry
    have hlength := congrArg List.length heq
    rw [kept, List.length_map, List.length_map, List.length_filter_eq_length_iff] at hlength
    exact Bool.not_eq_true' entry.2 ▸ hlength entry hentry
  · intro hnone
    rw [kept, List.filter_eq_self.mpr fun entry hentry => by rw [hnone entry hentry]; rfl]

/-- After any calls on a new cursor: what has been visited and what is ahead are the rows pushed
while the cursor was not exhausted, in order and each once; these are all rows if and only if none
was pushed onto an exhausted cursor. An advance finds no row if and only if those rows have all been
visited, and a row that is pushed becomes current if and only if the cursor is exhausted. -/
theorem visited_exact (labels : List String) (calls : List CursorCall) :
    let start : Cursor := { labels }
    let c := start.after calls
    start.visited calls ++ c.ahead.map .ok = (start.kept calls).map .ok ∧
      c.rows = (start.pushed calls).map (·.1) ∧
      (start.kept calls = c.rows ↔ ∀ entry ∈ start.pushed calls, entry.2 = false) ∧
      (c.advance.1 = false ↔ start.visited calls = (start.kept calls).map .ok) ∧
      ∀ row, (c.push row).current = if c.isExhausted then .ok row else c.current := by
  intro start c
  have hstart : start.Placed := fun p hp => nomatch hp
  have hvisited : start.visited calls ++ c.ahead.map .ok = (start.kept calls).map .ok :=
    visited_append_ahead hstart calls
  have hrows : c.rows = (start.pushed calls).map (·.1) := rows_after start calls
  refine ⟨hvisited, hrows, ?_, ?_, current_push (hstart.after calls)⟩
  · rw [hrows]
    exact kept_eq_pushed_iff start calls
  · rw [← hvisited, List.self_eq_append_right, List.map_eq_nil_iff]
    obtain ⟨row, rest, hahead, hfound, -⟩ | ⟨hahead, hfound, -⟩ := advance_cases c
    · simp [hahead, hfound]
    · simp [hahead, hfound]

/-- A row pushed after an advance has found none is current without being visited, and the advance
after that finds none either. -/
theorem not_forall_visited :
    ¬ ∀ (labels : List String) (calls : List CursorCall) (row : List Json),
      let start : Cursor := { labels }
      let c := start.after calls
      (c.push row).current = c.current ∧
        (c.advance.1 = false ↔ start.visited calls = c.rows.map .ok) := by
  intro hall
  have hadvance := (hall ["a"] [.advance, .push [.null]] []).2.mp rfl
  exact absurd hadvance (List.cons_ne_nil _ _).symm

end Cursor

end SqlGraph.Graph
