import SqlGraph.Proofs.Graph.Identity

/-!
# Equal keys and their digests

Keys are equal when their contents are, floats by value, while a digest shows numbers by their text.
The two agree on everything but the zeros, which are equal and have different texts. `zeroSigns`
lists the signs of the zeros of a value in the order in which it is walked: values that are the same
and have the same zeros are equal (`Json.eq_of_same_of_zeroSigns`), so for equal keys the signs
decide whether the digests are equal, whether one key finds what is remembered under the other, and
whether rows that read them converge on one bean.
-/

namespace SqlGraph

/-! ## Signs of zeros -/

/-- The sign of a zero; other numbers have none. -/
def Number.zeroSigns : Number → List Bool
  | .integer _ => []
  | .float x => if x.isZero then [x.negative] else []

/-- Numbers that are the same are both zeros or both not. -/
theorem Number.length_zeroSigns_of_same {m n : Number} (h : m.same n = true) :
    m.zeroSigns.length = n.zeroSigns.length := by
  cases m with
  | integer m =>
    cases n with
    | integer n => rfl
    | float y => simp [same] at h
  | float x =>
    cases n with
    | integer n => simp [same] at h
    | float y =>
      have hvalue : x = y ∨ x.isZero = true ∧ y.isZero = true := by
        simpa [same, Binary64.sameValue] using h
      rcases hvalue with rfl | ⟨hx, hy⟩
      · rfl
      · simp [zeroSigns, hx, hy]

/-- The sign is all that zeros may differ in. -/
theorem Number.eq_of_same_of_zeroSigns {m n : Number} (h : m.same n = true)
    (hsigns : m.zeroSigns = n.zeroSigns) : m = n := by
  cases m with
  | integer m =>
    cases n with
    | integer n => simpa [same] using h
    | float y => simp [same] at h
  | float x =>
    cases n with
    | integer n => simp [same] at h
    | float y =>
      have hvalue : x = y ∨ x.isZero = true ∧ y.isZero = true := by
        simpa [same, Binary64.sameValue] using h
      rcases hvalue with heq | ⟨hx, hy⟩
      · rw [heq]
      · have hsign : x.negative = y.negative := by simpa [zeroSigns, hx, hy] using hsigns
        rw [Binary64.eq_of_isZero hx hy hsign]

namespace Json

mutual

/-- The signs of the zeros in a value, in order. -/
def zeroSigns : Json → List Bool
  | .null => []
  | .bool _ => []
  | .number n => n.zeroSigns
  | .string _ => []
  | .array items => zeroSignsItems items
  | .object members => zeroSignsMembers members

/-- The signs of the zeros in items, in order. -/
def zeroSignsItems : List Json → List Bool
  | [] => []
  | v :: rest => zeroSigns v ++ zeroSignsItems rest

/-- The signs of the zeros in members, in order. -/
def zeroSignsMembers : List (String × Json) → List Bool
  | [] => []
  | (_, v) :: rest => zeroSigns v ++ zeroSignsMembers rest

end

mutual

/-- Values that are the same have as many zeros. -/
theorem length_zeroSigns_of_same {a b : Json} (h : same a b = true) :
    a.zeroSigns.length = b.zeroSigns.length := by
  cases a <;> cases b <;> try (simp [same] at h; done)
  case null.null => rfl
  case bool.bool => rfl
  case number.number m n => exact Number.length_zeroSigns_of_same h
  case string.string => rfl
  case array.array as bs => exact length_zeroSignsItems_of_same h
  case object.object as bs => exact length_zeroSignsMembers_of_same h

theorem length_zeroSignsItems_of_same {as bs : List Json} (h : sameItems as bs = true) :
    (zeroSignsItems as).length = (zeroSignsItems bs).length := by
  cases as <;> cases bs <;> try (simp [sameItems] at h; done)
  case nil.nil => rfl
  case cons.cons a as b bs =>
    simp only [sameItems, Bool.and_eq_true] at h
    have hhead := length_zeroSigns_of_same h.1
    have htail := length_zeroSignsItems_of_same h.2
    simp only [zeroSignsItems, List.length_append, hhead, htail]

theorem length_zeroSignsMembers_of_same {as bs : List (String × Json)}
    (h : sameMembers as bs = true) :
    (zeroSignsMembers as).length = (zeroSignsMembers bs).length := by
  cases as <;> cases bs <;> try (simp [sameMembers] at h; done)
  case nil.nil => rfl
  case cons.cons a as b bs =>
    obtain ⟨k, v⟩ := a
    obtain ⟨l, w⟩ := b
    simp only [sameMembers, Bool.and_eq_true] at h
    have hhead := length_zeroSigns_of_same h.1.2
    have htail := length_zeroSignsMembers_of_same h.2
    simp only [zeroSignsMembers, List.length_append, hhead, htail]

end

mutual

/-- Values that are the same and whose zeros have the same signs are equal. -/
theorem eq_of_same_of_zeroSigns {a b : Json} (h : same a b = true)
    (hsigns : a.zeroSigns = b.zeroSigns) : a = b := by
  cases a <;> cases b <;> try (simp [same] at h; done)
  case null.null => rfl
  case bool.bool => simpa [same] using h
  case number.number m n => rw [Number.eq_of_same_of_zeroSigns h hsigns]
  case string.string => simpa [same] using h
  case array.array as bs => rw [eq_of_sameItems_of_zeroSigns h hsigns]
  case object.object as bs => rw [eq_of_sameMembers_of_zeroSigns h hsigns]

theorem eq_of_sameItems_of_zeroSigns {as bs : List Json} (h : sameItems as bs = true)
    (hsigns : zeroSignsItems as = zeroSignsItems bs) : as = bs := by
  cases as <;> cases bs <;> try (simp [sameItems] at h; done)
  case nil.nil => rfl
  case cons.cons a as b bs =>
    simp only [sameItems, Bool.and_eq_true] at h
    -- the first items have as many zeros, so the signs of the others start at the same place
    obtain ⟨hhead, htail⟩ := List.append_inj hsigns (length_zeroSigns_of_same h.1)
    rw [eq_of_same_of_zeroSigns h.1 hhead, eq_of_sameItems_of_zeroSigns h.2 htail]

theorem eq_of_sameMembers_of_zeroSigns {as bs : List (String × Json)}
    (h : sameMembers as bs = true) (hsigns : zeroSignsMembers as = zeroSignsMembers bs) :
    as = bs := by
  cases as <;> cases bs <;> try (simp [sameMembers] at h; done)
  case nil.nil => rfl
  case cons.cons a as b bs =>
    obtain ⟨k, v⟩ := a
    obtain ⟨l, w⟩ := b
    simp only [sameMembers, Bool.and_eq_true, beq_iff_eq] at h
    obtain ⟨hhead, htail⟩ := List.append_inj hsigns (length_zeroSigns_of_same h.1.2)
    rw [h.1.1, eq_of_same_of_zeroSigns h.1.2 hhead, eq_of_sameMembers_of_zeroSigns h.2 htail]

end

end Json

/-! ## Keys -/

namespace Graph
namespace Key

/-- The signs of the zeros in the components, in order. -/
def zeroSigns (k : Key) : List Bool := Json.zeroSignsItems k.values

variable {k l : Key}

/-- Among equal keys, the signs of the zeros tell which are one key. -/
theorem eq_iff_zeroSigns (h : (k == l) = true) : k = l ↔ k.zeroSigns = l.zeroSigns := by
  constructor
  · exact congrArg zeroSigns
  · intro hsigns
    have hvalues := Json.eq_of_sameItems_of_zeroSigns h hsigns
    obtain ⟨values⟩ := k
    obtain ⟨values'⟩ := l
    exact congrArg Key.mk hvalues

/-- Among equal keys, those with one digest are one key. -/
theorem eq_iff_digest (h : (k == l) = true) : k = l ↔ k.digest = l.digest := by
  rw [← sameEntry_iff]
  simp [sameEntry, h]

/-- Equal keys have the same digest exactly when the zeros in them have the same signs. Exactly then
a bean remembered under one is found by the other, and rows that read the two as the key of a kind
get the same bean, whatever is transformed in one context. -/
theorem digest_eq_iff_zeroSigns (h : (k == l) = true) :
    (k.digest = l.digest ↔ k.zeroSigns = l.zeroSigns) ∧
    (∀ (c : Context) (kind : BeanKind) (bean : BeanId),
      (c.remember kind k bean).cached? kind l =
        if k.zeroSigns = l.zeroSigns then some bean else c.cached? kind l) ∧
    ∀ {α : Type} (calls : List (Transformer α × Row)) (heap : Heap α),
      ∀ p ∈ productionsEach calls { heap := heap }, ∀ q ∈ productionsEach calls { heap := heap },
        p.key? = some k → q.key? = some l → k.isNull = false →
        p.factory.kind = q.factory.kind →
        ((∃ bean, p.bean? = some bean ∧ q.bean? = some bean) ↔ k.zeroSigns = l.zeroSigns) := by
  refine ⟨?_, fun c kind bean => ?_, fun calls heap p hp q hq hk hl hnull hkind => ?_⟩
  · rw [← eq_iff_digest h, eq_iff_zeroSigns h]
  · rw [Context.cached?_remember]
    by_cases hkl : k = l
    · rw [if_pos ⟨rfl, hkl.symm⟩, if_pos ((eq_iff_zeroSigns h).mp hkl)]
    · rw [if_neg fun hboth => hkl hboth.2.symm, if_neg ((eq_iff_zeroSigns h).not.mp hkl)]
  · have htraced := (Traced.init heap).transformEach calls
    rw [htraced.same_bean_iff_eq hp hq hk hl, eq_iff_zeroSigns h]
    simp [hnull, hkind]

/-- A key with a zero of the given sign inside an object. -/
private def measured (negative : Bool) : Key :=
  ⟨[.object [("at", .array [.ofNat 1, .number (.float (.zero negative))])]]⟩

/-- A bean remembered under a key with a zero is found by that key, and not by the equal one whose
zero has the other sign. -/
theorem digest_eq_iff_zeroSigns_measured :
    (measured true == measured true) = true ∧ (measured true == measured false) = true ∧
      (measured true).digest ≠ (measured false).digest ∧
      (({} : Context).remember 0 (measured true) 7).cached? 0 (measured true) = some 7 ∧
      (({} : Context).remember 0 (measured true) 7).cached? 0 (measured false) = none := by
  have hsame : (measured true == measured true) = true := beq_self _
  have hequal : (measured true == measured false) = true := by decide
  obtain ⟨-, hfound, -⟩ := digest_eq_iff_zeroSigns hsame
  obtain ⟨hdigest, hmissed, -⟩ := digest_eq_iff_zeroSigns hequal
  have hsigns : (measured true).zeroSigns ≠ (measured false).zeroSigns := by decide
  exact ⟨hsame, hequal, hdigest.not.mpr hsigns, (hfound {} 0 7).trans (if_pos rfl),
    (hmissed {} 0 7).trans (if_neg hsigns)⟩

/-- The zeros are equal and have different digests, so equal keys need not have the same digest. -/
theorem not_forall_digest_eq : ¬ ∀ k l : Key, (k == l) = true → k.digest = l.digest := by
  intro hall
  have hzeros := hall ⟨[.number (.float (.zero false))]⟩ ⟨[.number (.float (.zero true))]⟩
    (by decide)
  exact absurd hzeros (by decide)

end Key
end Graph

end SqlGraph
