import RecordQuery.Document
import RecordQuery.Proofs.Number.Conversion

/-!
# Numbers as literals and in documents

A document takes a number over as a 64-bit integer or as a double, whatever the width of the field. A literal
is brought to the width: it has to lie in the range of the type, or is rounded to its precision. So the
literal that says what the document's number says finds that number just if the type has it:

    Document.scalar? v type = some x, the text of v is read as d, n = d  →
      ((Literal.number n).coerce type nullable field gives an equal of x  ↔  type.Has x)  (number_coerce_iff)

The document may hold a whole number that the type has no room for, and a double that is no single.
-/

namespace RecordQuery

/-- A finite number of a document: a whole number, or a double in the form in which it is kept. -/
def Yaml.IsNumber : Yaml → Prop
  | .int _ => True
  | .float (.finite _ m e) => Binary.Canonical .double m e
  | _ => False

/-- The type has the value: a whole number lies in the range of the type, and a float is equal to some number
of its format. -/
def FieldType.Has (type : FieldType) (x : Scalar) : Prop :=
  match type.integerRange?, type.floatFormat? with
  | some r, _ => ∃ n, r.contains n = true ∧ x = r.scalar n
  | none, some f => ∃ z, z.IsOf f ∧ x.equals (.float z) = true
  | none, none => True

/-! ## Texts of numbers -/

/-- What a document shows of a number is read as a decimal of its value. -/
theorem exists_decimal_of_isNumber {v : Yaml} (hv : v.IsNumber) : ∃ s d,
    v.numberText? = some s ∧ Decimal.read s = .ok d ∧ (∀ k : ℤ, v = .int k → d.value = k) ∧
      ∀ y, Document.float? v = some y → y.compare? (d.nearest .double) = some .eq := by
  cases v with
  | int k =>
    refine ⟨toString k, .ofInt k, rfl, Decimal.read_toString_int k, ?_, ?_⟩
    · intro j hj
      cases hj
      exact Decimal.value_ofInt k
    · intro y hy
      cases hy
      rw [Decimal.nearest_ofInt]
      have hdouble : Binary.IsOf .double (.ofInt .double k) :=
        Binary.nearest_isOf (by decide) (by decide) _ (by omega)
      exact Binary.compare?_self hdouble.ne_nan
  | float x =>
    cases x with
    | finite s m e =>
      obtain ⟨d, q, hread, hvalue, hq, hrounds⟩ := Binary.read_yamlText hv s
      refine ⟨_, d, rfl, hread, ?_, ?_⟩
      · intro j hj
        cases hj
      · intro y hy
        cases hy
        exact Binary.compare?_nearest hv hq hvalue hrounds
    | nan => cases hv
    | infinity s => cases hv
  | null => cases hv
  | bool b => cases hv
  | string s => cases hv
  | sequence items => cases hv
  | mapping entries => cases hv

/-! ## Whole numbers -/

/-- A document has a whole number where a type of whole numbers is asked for, of 64 bits. -/
theorem scalar?_integer {v : Yaml} {type : FieldType} {r : IntegerRange} {x : Scalar}
    (hr : type.integerRange? = some r) (h : Document.scalar? v type = some x) :
    ∃ k, v = .int k ∧ r.widest.contains k = true ∧ x = r.scalar k := by
  have hsigned {k : ℤ} (hk : Document.signed? v = some k) :
      v = .int k ∧ (IntegerRange.signed 64).contains k = true := by
    cases v with
    | int n =>
      have hif : (if (IntegerRange.signed 64).contains n then some n else none) = some k := hk
      split at hif
      · next hn =>
        cases hif
        exact ⟨rfl, hn⟩
      · cases hif
    | _ => cases hk
  have hunsigned {k : ℕ} (hk : Document.unsigned? v = some k) :
      ∃ n : ℤ, v = .int n ∧ (IntegerRange.unsigned 64).contains n = true ∧ n.toNat = k := by
    cases v with
    | int n =>
      have hif : (if (IntegerRange.unsigned 64).contains n then some n.toNat else none) = some k := hk
      split at hif
      · next hn =>
        cases hif
        exact ⟨n, rfl, hn, rfl⟩
      · cases hif
    | _ => cases hk
  cases type with
  | int32 | int64 =>
    cases hr
    obtain ⟨k, hk, rfl⟩ := Option.map_eq_some_iff.1 h
    exact ⟨k, (hsigned hk).1, (hsigned hk).2, rfl⟩
  | uint32 | uint64 =>
    cases hr
    obtain ⟨k, hk, rfl⟩ := Option.map_eq_some_iff.1 h
    obtain ⟨n, hn, hcontains, rfl⟩ := hunsigned hk
    exact ⟨n, hn, hcontains, rfl⟩
  | _ => cases hr

/-- The scalar of a whole number tells which number it is. -/
theorem contains_of_scalar_eq {r : IntegerRange} {n k : ℤ} (hn : r.contains n = true)
    (hk : r.widest.contains k = true) (h : r.scalar k = r.scalar n) : r.contains k = true := by
  have hlow := (IntegerRange.contains_iff.1 hn).1
  unfold IntegerRange.scalar at h
  by_cases hneg : r.low < 0
  · rw [if_pos hneg, if_pos hneg] at h
    cases h
    exact hn
  · have hwidest : r.widest = .unsigned 64 := if_neg hneg
    rw [hwidest] at hk
    have hzero : (0 : ℤ) ≤ k := (IntegerRange.contains_iff.1 hk).1
    rw [if_neg hneg, if_neg hneg] at h
    have hnat : k.toNat = n.toNat := Scalar.uint.inj h
    have heq : k = n := by omega
    rw [heq]
    exact hn

theorem equals_scalar (r : IntegerRange) (k : ℤ) : (r.scalar k).equals (r.scalar k) = true := by
  unfold IntegerRange.scalar
  split
  · have hcompare : (Scalar.int k).compare? (.int k) = some (compare k k) := rfl
    rw [Scalar.equals, hcompare, compare_eq_iff_eq.2 rfl]
    rfl
  · have hcompare : (Scalar.uint k.toNat).compare? (.uint k.toNat) = some (compare k.toNat k.toNat) := rfl
    rw [Scalar.equals, hcompare, compare_eq_iff_eq.2 rfl]
    rfl

theorem integer_coerce_iff {v : Yaml} {type : FieldType} {r : IntegerRange} {x : Scalar}
    (hr : type.integerRange? = some r) (h : Document.scalar? v type = some x) {n : Decimal}
    (hn : ∀ k : ℤ, v = .int k → n.value = k) (nullable : Bool) (field : String) :
    (∃ y, (Literal.number n).coerce type nullable field = .ok (some y) ∧ x.equals y = true) ↔
      type.Has x := by
  obtain ⟨k, hk, hwidest, rfl⟩ := scalar?_integer hr h
  have hhas : type.Has (r.scalar k) ↔ ∃ n, r.contains n = true ∧ r.scalar k = r.scalar n := by
    unfold FieldType.Has
    rw [hr]
  rw [hhas, Coercion.coerce_eq_numberToInteger hr]
  constructor
  · rintro ⟨y, hy, -⟩
    obtain ⟨y', hy', hsome⟩ := map_eq_ok_iff.1 hy
    exact ⟨k, ((Coercion.numberToInteger_eq_ok_iff (hn k hk) hwidest).1 hy').1, rfl⟩
  · rintro ⟨j, hj, heq⟩
    have hcontains := contains_of_scalar_eq hj hwidest heq
    have hok : Coercion.numberToInteger n r type field = .ok (r.scalar k) :=
      (Coercion.numberToInteger_eq_ok_iff (hn k hk) hwidest).2 ⟨hcontains, rfl⟩
    exact ⟨r.scalar k, map_eq_ok_iff.2 ⟨_, hok, rfl⟩, equals_scalar r k⟩

/-! ## Floats and decimals -/

theorem equals_float_iff {y z : Binary} :
    (Scalar.float y).equals (.float z) = true ↔ y.compare? z = some .eq := decide_eq_true_iff

theorem float_coerce_iff {v : Yaml} {type : FieldType} {f : Binary.Format} {x : Scalar}
    (hf : type.floatFormat? = some f) (h : Document.scalar? v type = some x) {n : Decimal}
    (hround : n.toDouble = n.nearest .double)
    (hn : ∀ y, Document.float? v = some y → y.compare? (n.nearest .double) = some .eq)
    (nullable : Bool) (field : String) :
    (∃ y, (Literal.number n).coerce type nullable field = .ok (some y) ∧ x.equals y = true) ↔
      type.Has x := by
  have hdouble : Binary.IsOf .double (n.nearest .double) :=
    Binary.nearest_isOf (by decide) (by decide) _ (Nat.pow_pos (by omega))
  cases type with
  | float32 =>
    obtain ⟨y, hy, rfl⟩ := Option.map_eq_some_iff.1 h
    have hcoerce : (Literal.number n).coerce .float32 nullable field =
        .ok (some (.float (n.toDouble.round .single).widen)) := rfl
    have hhas : FieldType.float32.Has (.float y) ↔
        ∃ z, z.IsOf .single ∧ y.compare? z = some .eq := by
      have hunfold : FieldType.float32.Has (.float y) =
          ∃ z, z.IsOf .single ∧ (Scalar.float y).equals (.float z) = true := rfl
      rw [hunfold]
      simp only [equals_float_iff]
    have hsame := Binary.compare?_congr_left (hn y hy)
    rw [hhas, hcoerce, hround]
    simp only [hsame, Binary.exists_single_iff hdouble]
    constructor
    · rintro ⟨x, hx, hequals⟩
      cases hx
      rw [← hsame]
      exact equals_float_iff.1 hequals
    · intro hcompare
      refine ⟨_, rfl, equals_float_iff.2 ?_⟩
      rw [hsame]
      exact hcompare
  | float64 =>
    obtain ⟨y, hy, rfl⟩ := Option.map_eq_some_iff.1 h
    have hequals : (Scalar.float y).equals (.float n.toDouble) = true := by
      rw [hround]
      exact equals_float_iff.2 (hn y hy)
    constructor
    · intro _
      exact ⟨n.nearest .double, hdouble, equals_float_iff.2 (hn y hy)⟩
    · intro _
      exact ⟨.float n.toDouble, rfl, hequals⟩
  | _ => cases hf

/-- Numbers that are neither whole numbers nor floats are decimals. -/
theorem eq_decimal {type : FieldType} (htype : type.isNumeric = true) (hinteger : type.integerRange? = none)
    (hformat : type.floatFormat? = none) : type = .decimal := by
  cases type <;>
    simp_all [FieldType.isNumeric, FieldType.isInteger, FieldType.integerRange?, FieldType.floatFormat?]

theorem decimal_coerce_iff {v : Yaml} {x : Scalar} (h : Document.scalar? v .decimal = some x) {s : String}
    {d : Decimal} (hs : v.numberText? = some s) (hd : Decimal.read s = .ok d) {n : Decimal}
    (hn : n.compare d = .eq) (nullable : Bool) (field : String) :
    (∃ y, (Literal.number n).coerce .decimal nullable field = .ok (some y) ∧ x.equals y = true) ↔
      FieldType.decimal.Has x := by
  have hdecimal : Document.decimal? v = some d := by
    have hread : (Decimal.read s).toOption = some d := toOption_eq_some_iff.2 hd
    cases v with
    | int k =>
      cases hs
      exact hread
    | float x =>
      cases hs
      exact hread
    | _ => cases hs
  obtain ⟨d', hd', rfl⟩ := Option.map_eq_some_iff.1 h
  rw [hdecimal] at hd'
  cases hd'
  have hcompare : d.compare n = .eq := by
    rw [Decimal.compare_eq_iff] at hn ⊢
    exact hn.symm
  constructor
  · intro _
    trivial
  · intro _
    refine ⟨.decimal n, rfl, ?_⟩
    have hsome : (Scalar.decimal d).compare? (.decimal n) = some (d.compare n) := rfl
    rw [Scalar.equals, hsome, hcompare]
    rfl

/-! ## Top theorem (proved from the lemmas above) -/

/-- The literal that says what a document's number says is accepted and finds that number just if the type of
the field has the number. For floats, the literal is assumed to become the nearest double. -/
theorem number_coerce_iff {v : Yaml} (hv : v.IsNumber) {type : FieldType} (htype : type.isNumeric = true)
    {x : Scalar} (h : Document.scalar? v type = some x) :
    ∃ s d, v.numberText? = some s ∧ Decimal.read s = .ok d ∧
      ∀ n : Decimal, n.compare d = .eq →
        (type.floatFormat?.isSome = true → n.toDouble = n.nearest .double) → ∀ nullable field,
          ((∃ y, (Literal.number n).coerce type nullable field = .ok (some y) ∧ x.equals y = true) ↔
            type.Has x) := by
  obtain ⟨s, d, hs, hd, hwhole, hfloat⟩ := exists_decimal_of_isNumber hv
  refine ⟨s, d, hs, hd, fun n hn hround nullable field => ?_⟩
  have hvalue : n.value = d.value := Decimal.compare_eq_iff.1 hn
  cases hinteger : type.integerRange? with
  | some r => exact integer_coerce_iff hinteger h (fun k hk => hvalue.trans (hwhole k hk)) nullable field
  | none =>
    cases hformat : type.floatFormat? with
    | some f =>
      rw [← Decimal.nearest_eq_of_value hvalue] at hfloat
      exact float_coerce_iff hformat h (hround (by rw [hformat]; rfl)) hfloat nullable field
    | none =>
      have hdecimal : type = .decimal := eq_decimal htype hinteger hformat
      subst hdecimal
      exact decimal_coerce_iff h hs hd hn nullable field

/-- The double nearest to `0.1`. -/
def tenth : Binary := .finite false 7205759403792794 (-56)

/-- `0.1` in a field of doubles. -/
theorem number_coerce_tenth :
    (Yaml.float tenth).IsNumber ∧ FieldType.float64.isNumeric = true ∧
      Document.scalar? (.float tenth) .float64 = some (.float tenth) ∧
      (⟨1, 1⟩ : Decimal).toDouble = (⟨1, 1⟩ : Decimal).nearest .double ∧
      ∃ y, (Literal.number ⟨1, 1⟩).coerce .float64 false "Ratio" = .ok (some y) ∧
        (Scalar.float tenth).equals y = true := by
  have hcanonical : Binary.IsOf .double tenth := ⟨by decide, by decide, by decide, .inl (by decide)⟩
  have hv : (Yaml.float tenth).IsNumber := hcanonical
  have htype : FieldType.float64.isNumeric = true := rfl
  have hscalar : Document.scalar? (.float tenth) .float64 = some (.float tenth) := rfl
  have hround : (⟨1, 1⟩ : Decimal).toDouble = (⟨1, 1⟩ : Decimal).nearest .double :=
    Decimal.toDouble_eq_nearest (by decide) (by decide)
  refine ⟨hv, htype, hscalar, hround, ?_⟩
  obtain ⟨s, d, hs, hd, hiff⟩ := number_coerce_iff hv htype hscalar
  have hread : Decimal.read tenth.yamlText = .ok ⟨1, 1⟩ := by
    apply toOption_eq_some_iff.1
    decide +kernel
  cases hs
  rw [hread] at hd
  cases hd
  have hhas : FieldType.float64.Has (.float tenth) := ⟨tenth, hcanonical, by decide⟩
  exact (hiff ⟨1, 1⟩ rfl (fun _ => hround) false "Ratio").2 hhas

/-- A document has 3000000000 in a field of 32 bits, where no literal of that number is accepted, and the
double `0.1` in a field of singles, where the literal `0.1` is another number. -/
theorem wide_numbers_not_found :
    (Document.scalar? (.int 3000000000) .int32 = some (.int 3000000000) ∧
      ∀ y, (Literal.number ⟨3000000000, 0⟩).coerce .int32 false "Age" ≠ .ok y) ∧
    (Document.scalar? (.float tenth) .float32 = some (.float tenth) ∧
      ∃ y, (Literal.number ⟨1, 1⟩).coerce .float32 false "Ratio" = .ok (some y) ∧
        (Scalar.float tenth).equals y = false) := by
  refine ⟨⟨by decide +kernel, fun y hy => ?_⟩, rfl, ?_⟩
  · have hnone : ((Literal.number ⟨3000000000, 0⟩).coerce .int32 false "Age").toOption = none := by
      decide +kernel
    rw [hy] at hnone
    cases hnone
  · have hcoerce : (Literal.number ⟨1, 1⟩).coerce .float32 false "Ratio" =
        .ok (some (.float ((⟨1, 1⟩ : Decimal).toDouble.round .single).widen)) := rfl
    refine ⟨_, hcoerce, ?_⟩
    decide +kernel

end RecordQuery
