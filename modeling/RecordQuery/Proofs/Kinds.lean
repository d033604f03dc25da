import RecordQuery.Document
import RecordQuery.Proofs.Conforming

/-!
# Values of one type are of one kind

The literals of a query and the values of a document are read at a type by two different tables. Both
give scalars of the kind in which values of the type are kept, and scalars of one kind always have an
order, unless one of them is a float that is not a number:

    l.coerce type nullable field = .ok (some v)  →  v.suits type = true      (coerce_suits)
    Document.scalar? y type = some s  →  s.suits type = true                 (scalar?_suits)
    a.kind = b.kind  →  (a.compare? b = none  ↔  a.isNaN ∨ b.isNaN)          (compare?_eq_none_iff)
-/

namespace RecordQuery

/-! ## Kinds -/

/-- The kinds of scalars. -/
inductive ScalarKind where
  | int
  | uint
  | float
  | decimal
  | bool
  | char
  | text
  | dateTime
  | date
  | duration
deriving DecidableEq, Repr

namespace Scalar

/-- The kind of a scalar. -/
def kind : Scalar → ScalarKind
  | int _ => .int
  | uint _ => .uint
  | float _ => .float
  | decimal _ => .decimal
  | bool _ => .bool
  | char _ => .char
  | text _ => .text
  | dateTime _ => .dateTime
  | date _ => .date
  | duration _ => .duration

/-- Is the scalar a float that is not a number? -/
def isNaN : Scalar → Bool
  | float x => x = .nan
  | _ => false

end Scalar

/-- The kind of the values of a type. References have none. -/
def FieldType.kind? : FieldType → Option ScalarKind
  | int32 | int64 => some .int
  | uint32 | uint64 => some .uint
  | float32 | float64 => some .float
  | decimal => some .decimal
  | bool => some .bool
  | char => some .char
  | string => some .text
  | dateTime => some .dateTime
  | date => some .date
  | duration => some .duration
  | record _ => none

/-! ## Lemmas -/

theorem suits_iff (s : Scalar) (type : FieldType) : s.suits type = true ↔ type.kind? = some s.kind := by
  cases type <;> cases s <;> simp [Scalar.suits, Scalar.kind, FieldType.kind?]

theorem kind_eq_of_suits {a b : Scalar} {type : FieldType} (ha : a.suits type = true)
    (hb : b.suits type = true) : a.kind = b.kind :=
  Option.some.inj (((suits_iff a type).1 ha).symm.trans ((suits_iff b type).1 hb))

theorem binary_compare?_eq_none_iff (x y : Binary) : x.compare? y = none ↔ x = .nan ∨ y = .nan := by
  cases x <;> cases y <;> simp [Binary.compare?]

/-- Scalars of one kind have an order, but for what is not a number. -/
theorem compare?_eq_none_iff {a b : Scalar} (h : a.kind = b.kind) :
    a.compare? b = none ↔ a.isNaN = true ∨ b.isNaN = true := by
  cases a <;> cases b <;> cases h
  case float.float x y => simpa [Scalar.isNaN, Scalar.compare?] using binary_compare?_eq_none_iff x y
  all_goals simp [Scalar.compare?, Scalar.isNaN]

/-! ## Literals -/

theorem scalar_suits {type : FieldType} {r : IntegerRange} (hr : type.integerRange? = some r) (n : Int) :
    (r.scalar n).suits type = true := by
  cases type <;> cases hr <;> rfl

theorem float_suits {type : FieldType} {f : Binary.Format} (hf : type.floatFormat? = some f)
    (x : Binary) : (Scalar.float x).suits type = true := by
  cases type <;> cases hf <;> rfl

theorem numberToInteger_suits {n : Decimal} {r : IntegerRange} {type : FieldType} {field : String}
    {v : Scalar} (hr : type.integerRange? = some r)
    (h : Coercion.numberToInteger n r type field = .ok v) : v.suits type = true := by
  unfold Coercion.numberToInteger at h
  split at h
  · cases h
  · split at h
    · cases h
    · split at h
      · cases h
        exact scalar_suits hr _
      · cases h

theorem number_suits {n : Decimal} {type : FieldType} {field : String} {v : Scalar}
    (h : Coercion.number n type field = .ok v) : v.suits type = true := by
  unfold Coercion.number at h
  split at h
  · next r hr => exact numberToInteger_suits hr h
  · split at h <;> cases h <;> rfl

theorem plain_suits {s : String} {type : FieldType} {v : Scalar}
    (h : Coercion.plain s type = .ok v) : v.suits type = true := by
  unfold Coercion.plain at h
  split at h
  · next r hr =>
    split at h
    · cases h
      exact scalar_suits hr _
    · cases h
  · split at h
    · next f hf =>
      split at h
      · cases h
        exact float_suits hf _
      · cases h
    · split at h
      · split at h <;> cases h
        rfl
      · split at h <;> cases h
        rfl
      · cases h

theorem reading_suits {s : String} {type : FieldType} {v : Scalar}
    (h : Coercion.reading s type = .ok v) : v.suits type = true := by
  unfold Coercion.reading at h
  split at h
  · cases h
    rfl
  · split at h <;> cases h
    rfl
  · split at h <;> cases h
    rfl
  · split at h <;> cases h
    rfl
  · exact plain_suits h

theorem bool_suits {b : Bool} {type : FieldType} {field : String} {v : Scalar}
    (h : Coercion.bool b type field = .ok v) : v.suits type = true := by
  unfold Coercion.bool at h
  split at h <;> cases h <;> rfl

/-- A literal is read as a scalar of the kind of the type. -/
theorem coerce_suits {l : Literal} {type : FieldType} {nullable : Bool} {field : String} {v : Scalar}
    (h : l.coerce type nullable field = .ok (some v)) : v.suits type = true := by
  cases l with
  | null => cases nullable <;> cases h
  | number n =>
    obtain ⟨w, hw, heq⟩ := map_eq_ok_iff.1 h
    cases heq
    exact number_suits hw
  | string s =>
    obtain ⟨w, hw, heq⟩ := map_eq_ok_iff.1 h
    cases heq
    exact reading_suits (mapError_eq_ok_iff.1 hw)
  | bool b =>
    obtain ⟨w, hw, heq⟩ := map_eq_ok_iff.1 h
    cases heq
    exact bool_suits hw

/-! ## Values of documents -/

/-- A value of a document is read as a scalar of the kind of the type. -/
theorem scalar?_suits {y : Yaml} {type : FieldType} {s : Scalar} (h : Document.scalar? y type = some s) :
    s.suits type = true := by
  cases type <;> simp only [Document.scalar?, Option.map_eq_some_iff, reduceCtorEq] at h <;>
    obtain ⟨_, _, rfl⟩ := h <;> rfl

end RecordQuery
