import SqlGraph.Graph.Key

/-!
# Equality of keys

Values that are the same (`==`) have digests of the same length, so the digest of a list splits
where those of its items end. With the digests equal too, the values are equal: the entry of a key
is that of equal keys only (`Key.sameEntry_iff`). On values without the float `-0.0` the digests
add nothing (`Key.beq_iff_eq`).
-/

namespace SqlGraph

/-! ## Numbers -/

namespace Binary64

theorem sameValue_symm {x y : Binary64} (h : x.sameValue y = true) : y.sameValue x = true := by
  have hvalue : x = y ∨ x.isZero = true ∧ y.isZero = true := by simpa [sameValue] using h
  rcases hvalue with rfl | ⟨hx, hy⟩
  · exact h
  · simp [sameValue, hx, hy]

theorem sameValue_trans {x y z : Binary64} (h : x.sameValue y = true)
    (h' : y.sameValue z = true) : x.sameValue z = true := by
  have hleft : x = y ∨ x.isZero = true ∧ y.isZero = true := by simpa [sameValue] using h
  have hright : y = z ∨ y.isZero = true ∧ z.isZero = true := by simpa [sameValue] using h'
  rcases hleft with rfl | ⟨hx, hy⟩
  · exact h'
  · rcases hright with rfl | ⟨-, hz⟩
    · exact h
    · simp [sameValue, hx, hz]

/-- Zeros are told apart by their sign. -/
theorem eq_of_isZero {x y : Binary64} (hx : x.isZero = true) (hy : y.isZero = true)
    (hsign : x.negative = y.negative) : x = y := by
  obtain ⟨negative, exponent, fraction, _, _⟩ := x
  obtain ⟨negative', exponent', fraction', _, _⟩ := y
  simp only [isZero, Bool.and_eq_true, beq_iff_eq] at hx hy
  obtain ⟨rfl, rfl⟩ := hx
  obtain ⟨rfl, rfl⟩ := hy
  obtain rfl : negative = negative' := hsign
  rfl

/-- A zero is the zero of its sign. -/
theorem eq_zero_of_isZero {x : Binary64} (hx : x.isZero = true) : x = zero x.negative :=
  eq_of_isZero hx rfl rfl

end Binary64

namespace Number

/-- Whether the number is the float `-0.0`. -/
def isNegativeZero : Number → Bool
  | .integer _ => false
  | .float x => x.isZero && x.negative

@[simp] theorem same_self (n : Number) : n.same n = true := by
  cases n with
  | integer n => simp [same]
  | float x => simp [same, Binary64.sameValue]

theorem same_symm {m n : Number} (h : m.same n = true) : n.same m = true := by
  cases m <;> cases n <;> try (simp [same] at h; done)
  case integer.integer m n =>
    obtain rfl : m = n := by simpa [same] using h
    exact h
  case float.float => exact Binary64.sameValue_symm h

theorem same_trans {m n o : Number} (h : m.same n = true) (h' : n.same o = true) :
    m.same o = true := by
  cases m <;> cases n <;> try (simp [same] at h; done)
  case integer.integer m n =>
    obtain rfl : m = n := by simpa [same] using h
    exact h'
  case float.float =>
    cases o with
    | integer o => simp [same] at h'
    | float z => exact Binary64.sameValue_trans h h'

/-- The text of a number shows the sign of a zero. -/
theorem eq_of_same_of_text {m n : Number} (h : m.same n = true) (htext : m.text = n.text) :
    m = n := by
  cases m with
  | integer m =>
    cases n with
    | integer n => simpa [same] using h
    | float y => simp [same] at h
  | float x =>
    cases n with
    | integer n => simp [same] at h
    | float y =>
      have hvalue : x = y ∨ x.isZero = true ∧ y.isZero = true := by
        simpa [same, Binary64.sameValue] using h
      rcases hvalue with heq | ⟨hx, hy⟩
      · rw [heq]
      · -- two zeros of different signs have the texts `0.0` and `-0.0`
        rw [Binary64.eq_zero_of_isZero hx, Binary64.eq_zero_of_isZero hy] at htext ⊢
        cases hsx : x.negative <;> cases hsy : y.negative <;> rw [hsx, hsy] at htext
        · exact absurd htext (by decide)
        · exact absurd htext (by decide)

/-- Without `-0.0`, numbers that are the same are equal. -/
theorem eq_of_same {m n : Number} (h : m.same n = true) (hm : m.isNegativeZero = false)
    (hn : n.isNegativeZero = false) : m = n := by
  cases m with
  | integer m =>
    cases n with
    | integer n => simpa [same] using h
    | float y => simp [same] at h
  | float x =>
    cases n with
    | integer n => simp [same] at h
    | float y =>
      have hvalue : x = y ∨ x.isZero = true ∧ y.isZero = true := by
        simpa [same, Binary64.sameValue] using h
      rcases hvalue with heq | ⟨hx, hy⟩
      · rw [heq]
      · have hsx : x.negative = false := by simpa [isNegativeZero, hx] using hm
        have hsy : y.negative = false := by simpa [isNegativeZero, hy] using hn
        rw [Binary64.eq_of_isZero hx hy (hsx.trans hsy.symm)]

end Number

/-! ## Values -/

namespace Json

mutual

/-- Whether the float `-0.0` occurs nowhere in a value. -/
def zeroFree : Json → Bool
  | .null => true
  | .bool _ => true
  | .number n => !n.isNegativeZero
  | .string _ => true
  | .array items => zeroFreeItems items
  | .object members => zeroFreeMembers members

/-- Whether the float `-0.0` occurs in no item. -/
def zeroFreeItems : List Json → Bool
  | [] => true
  | v :: rest => zeroFree v && zeroFreeItems rest

/-- Whether the float `-0.0` occurs in no member. -/
def zeroFreeMembers : List (String × Json) → Bool
  | [] => true
  | (_, v) :: rest => zeroFree v && zeroFreeMembers rest

end

mutual

theorem same_self (v : Json) : same v v = true := by
  cases v with
  | null => rfl
  | bool b => simp [same]
  | number n => exact Number.same_self n
  | string s => simp [same]
  | array items => exact sameItems_self items
  | object members => exact sameMembers_self members

theorem sameItems_self (items : List Json) : sameItems items items = true := by
  cases items with
  | nil => rfl
  | cons v rest =>
    unfold sameItems
    rw [same_self v, sameItems_self rest]
    rfl

theorem sameMembers_self (members : List (String × Json)) :
    sameMembers members members = true := by
  cases members with
  | nil => rfl
  | cons m rest =>
    obtain ⟨k, v⟩ := m
    unfold sameMembers
    rw [same_self v, sameMembers_self rest]
    simp

end

mutual

theorem same_symm {a b : Json} (h : same a b = true) : same b a = true := by
  cases a <;> cases b <;> try (simp [same] at h; done)
  case null.null => rfl
  case bool.bool a b =>
    obtain rfl : a = b := by simpa [same] using h
    exact h
  case number.number => exact Number.same_symm h
  case string.string a b =>
    obtain rfl : a = b := by simpa [same] using h
    exact h
  case array.array => exact sameItems_symm h
  case object.object => exact sameMembers_symm h

theorem sameItems_symm {as bs : List Json} (h : sameItems as bs = true) :
    sameItems bs as = true := by
  cases as <;> cases bs <;> try (simp [sameItems] at h; done)
  case nil.nil => rfl
  case cons.cons a as b bs =>
    simp only [sameItems, Bool.and_eq_true] at h ⊢
    exact ⟨same_symm h.1, sameItems_symm h.2⟩

theorem sameMembers_symm {as bs : List (String × Json)} (h : sameMembers as bs = true) :
    sameMembers bs as = true := by
  cases as <;> cases bs <;> try (simp [sameMembers] at h; done)
  case nil.nil => rfl
  case cons.cons a as b bs =>
    obtain ⟨k, v⟩ := a
    obtain ⟨l, w⟩ := b
    simp only [sameMembers, Bool.and_eq_true, beq_iff_eq] at h ⊢
    exact ⟨⟨h.1.1.symm, same_symm h.1.2⟩, sameMembers_symm h.2⟩

end

mutual

theorem same_trans {a b c : Json} (h : same a b = true) (h' : same b c = true) :
    same a c = true := by
  cases a <;> cases b <;> try (simp [same] at h; done)
  case null.null => exact h'
  case bool.bool a b =>
    obtain rfl : a = b := by simpa [same] using h
    exact h'
  case number.number =>
    cases c <;> try (simp [same] at h'; done)
    exact Number.same_trans h h'
  case string.string a b =>
    obtain rfl : a = b := by simpa [same] using h
    exact h'
  case array.array =>
    cases c <;> try (simp [same] at h'; done)
    exact sameItems_trans h h'
  case object.object =>
    cases c <;> try (simp [same] at h'; done)
    exact sameMembers_trans h h'
termination_by structural a

theorem sameItems_trans {as bs cs : List Json} (h : sameItems as bs = true)
    (h' : sameItems bs cs = true) : sameItems as cs = true := by
  cases as <;> cases bs <;> try (simp [sameItems] at h; done)
  case nil.nil => exact h'
  case cons.cons a as b bs =>
    cases cs with
    | nil => simp [sameItems] at h'
    | cons c cs =>
      simp only [sameItems, Bool.and_eq_true] at h h' ⊢
      exact ⟨same_trans h.1 h'.1, sameItems_trans h.2 h'.2⟩
termination_by structural as

theorem sameMembers_trans {as bs cs : List (String × Json)} (h : sameMembers as bs = true)
    (h' : sameMembers bs cs = true) : sameMembers as cs = true := by
  cases as <;> cases bs <;> try (simp [sameMembers] at h; done)
  case nil.nil => exact h'
  case cons.cons a as b bs =>
    cases cs with
    | nil => simp [sameMembers] at h'
    | cons c cs =>
      obtain ⟨k, u⟩ := a
      obtain ⟨l, v⟩ := b
      obtain ⟨m, w⟩ := c
      simp only [sameMembers, Bool.and_eq_true, beq_iff_eq] at h h' ⊢
      exact ⟨⟨h.1.1.trans h'.1.1, same_trans h.1.2 h'.1.2⟩, sameMembers_trans h.2 h'.2⟩
termination_by structural as

end

/-- Values are the same in the way of an equality: floats are compared by value, and there is no
float that is not a number. -/
instance : EquivBEq Json where
  rfl := same_self _
  symm := same_symm
  trans := same_trans

mutual

/-- Without `-0.0`, values that are the same are equal. -/
theorem eq_of_same {a b : Json} (h : same a b = true) (ha : a.zeroFree = true)
    (hb : b.zeroFree = true) : a = b := by
  cases a <;> cases b <;> try (simp [same] at h; done)
  case null.null => rfl
  case bool.bool => simpa [same] using h
  case number.number m n =>
    rw [Number.eq_of_same h (by simpa [zeroFree] using ha) (by simpa [zeroFree] using hb)]
  case string.string => simpa [same] using h
  case array.array as bs => rw [eq_of_sameItems h ha hb]
  case object.object as bs => rw [eq_of_sameMembers h ha hb]

theorem eq_of_sameItems {as bs : List Json} (h : sameItems as bs = true)
    (ha : zeroFreeItems as = true) (hb : zeroFreeItems bs = true) : as = bs := by
  cases as <;> cases bs <;> try (simp [sameItems] at h; done)
  case nil.nil => rfl
  case cons.cons a as b bs =>
    simp only [sameItems, zeroFreeItems, Bool.and_eq_true] at h ha hb
    rw [eq_of_same h.1 ha.1 hb.1, eq_of_sameItems h.2 ha.2 hb.2]

theorem eq_of_sameMembers {as bs : List (String × Json)} (h : sameMembers as bs = true)
    (ha : zeroFreeMembers as = true) (hb : zeroFreeMembers bs = true) : as = bs := by
  cases as <;> cases bs <;> try (simp [sameMembers] at h; done)
  case nil.nil => rfl
  case cons.cons a as b bs =>
    obtain ⟨k, v⟩ := a
    obtain ⟨l, w⟩ := b
    simp only [sameMembers, zeroFreeMembers, Bool.and_eq_true, beq_iff_eq] at h ha hb
    rw [h.1.1, eq_of_same h.1.2 ha.1 hb.1, eq_of_sameMembers h.2 ha.2 hb.2]

end

end Json

/-! ## Digests -/

namespace Graph

mutual

/-- Values that are the same have digests of the same length. -/
theorem length_digest_of_same {a b : Json} (h : Json.same a b = true) :
    (digest a).length = (digest b).length := by
  cases a <;> cases b <;> try (simp [Json.same] at h; done)
  case null.null => rfl
  case bool.bool => rfl
  case number.number => rfl
  case string.string => rfl
  case array.array as bs =>
    have hitems := length_digestItems_of_same h
    simp only [digest, List.length_cons, hitems]
  case object.object as bs =>
    have hmembers := length_digestMembers_of_same h
    simp only [digest, List.length_cons, hmembers]

theorem length_digestItems_of_same {as bs : List Json} (h : Json.sameItems as bs = true) :
    (digestItems as).length = (digestItems bs).length := by
  cases as <;> cases bs <;> try (simp [Json.sameItems] at h; done)
  case nil.nil => rfl
  case cons.cons a as b bs =>
    simp only [Json.sameItems, Bool.and_eq_true] at h
    have hhead := length_digest_of_same h.1
    have htail := length_digestItems_of_same h.2
    simp only [digestItems, List.length_append, hhead, htail]

theorem length_digestMembers_of_same {as bs : List (String × Json)}
    (h : Json.sameMembers as bs = true) :
    (digestMembers as).length = (digestMembers bs).length := by
  cases as <;> cases bs <;> try (simp [Json.sameMembers] at h; done)
  case nil.nil => rfl
  case cons.cons a as b bs =>
    obtain ⟨k, v⟩ := a
    obtain ⟨l, w⟩ := b
    simp only [Json.sameMembers, Bool.and_eq_true] at h
    have hhead := length_digest_of_same h.1.2
    have htail := length_digestMembers_of_same h.2
    simp only [digestMembers, List.cons_append, List.length_cons, List.length_append, hhead, htail]

end

mutual

/-- Values that are the same and have the same digest are equal. -/
theorem eq_of_same_of_digest {a b : Json} (h : Json.same a b = true)
    (hdigest : digest a = digest b) : a = b := by
  cases a <;> cases b <;> try (simp [Json.same] at h; done)
  case null.null => rfl
  case bool.bool => simpa [Json.same] using h
  case number.number m n =>
    have htext : m.text = n.text := by simpa [digest] using hdigest
    rw [Number.eq_of_same_of_text h htext]
  case string.string => simpa [Json.same] using h
  case array.array as bs =>
    have hitems : digestItems as = digestItems bs := (by simpa [digest] using hdigest : _ ∧ _).2
    rw [eq_of_sameItems_of_digest h hitems]
  case object.object as bs =>
    have hmembers : digestMembers as = digestMembers bs :=
      (by simpa [digest] using hdigest : _ ∧ _).2
    rw [eq_of_sameMembers_of_digest h hmembers]

theorem eq_of_sameItems_of_digest {as bs : List Json} (h : Json.sameItems as bs = true)
    (hdigest : digestItems as = digestItems bs) : as = bs := by
  cases as <;> cases bs <;> try (simp [Json.sameItems] at h; done)
  case nil.nil => rfl
  case cons.cons a as b bs =>
    simp only [Json.sameItems, Bool.and_eq_true] at h
    -- the digests of the first items end at the same place
    obtain ⟨hhead, htail⟩ := List.append_inj hdigest (length_digest_of_same h.1)
    rw [eq_of_same_of_digest h.1 hhead, eq_of_sameItems_of_digest h.2 htail]

theorem eq_of_sameMembers_of_digest {as bs : List (String × Json)}
    (h : Json.sameMembers as bs = true) (hdigest : digestMembers as = digestMembers bs) :
    as = bs := by
  cases as <;> cases bs <;> try (simp [Json.sameMembers] at h; done)
  case nil.nil => rfl
  case cons.cons a as b bs =>
    obtain ⟨k, v⟩ := a
    obtain ⟨l, w⟩ := b
    simp only [Json.sameMembers, Bool.and_eq_true, beq_iff_eq] at h
    obtain ⟨hhead, htail⟩ :=
      List.append_inj (List.cons.inj hdigest).2 (length_digest_of_same h.1.2)
    rw [h.1.1, eq_of_same_of_digest h.1.2 hhead, eq_of_sameMembers_of_digest h.2 htail]

end

/-! ## Keys -/

namespace Key

/-- Whether the float `-0.0` occurs in no component. -/
def zeroFree (k : Key) : Bool := Json.zeroFreeItems k.values

@[simp] theorem beq_self (k : Key) : (k == k) = true := Json.sameItems_self k.values

/-- Keys find the same entry of a cache when they are equal, and only then. -/
theorem sameEntry_iff {k l : Key} : k.sameEntry l = true ↔ k = l := by
  constructor
  · intro h
    have hboth : (k == l) = true ∧ k.digest = l.digest := by simpa [sameEntry] using h
    have hitems : digestItems k.values = digestItems l.values := (List.cons.inj hboth.2).2
    -- equal keys may differ in the sign of a zero, which their digests show
    have hvalues := eq_of_sameItems_of_digest hboth.1 hitems
    obtain ⟨values⟩ := k
    obtain ⟨values'⟩ := l
    exact congrArg Key.mk hvalues
  · intro h
    subst h
    simp [sameEntry]

instance : DecidableEq Key := fun _ _ => decidable_of_iff _ sameEntry_iff

/-- Without `-0.0`, keys with the same contents are equal. -/
theorem beq_iff_eq {k l : Key} (hk : k.zeroFree = true) (hl : l.zeroFree = true) :
    (k == l) = true ↔ k = l := by
  constructor
  · intro h
    have hvalues := Json.eq_of_sameItems h hk hl
    obtain ⟨values⟩ := k
    obtain ⟨values'⟩ := l
    exact congrArg Key.mk hvalues
  · intro h
    rw [h, beq_self]

end Key

end Graph

end SqlGraph
