import FrontEnd.Compile.Operator
import Mathlib.Tactic.Common

/-!
# Types that fade

A type fades to itself and to the undefined one.  What the rules for types accept they accept when the types have
faded, and the type that they give fades with them.  Only in this direction: a comparison with an operand that has
faded is accepted whatever the other operand is.
-/

namespace FrontEnd.DataType

/-- Whether a type is left as it is or becomes the undefined one. -/
def Fades (first second : DataType) : Prop :=
  second = first ∨ second = undefined

variable {first second left left' right right' type : DataType}

namespace Fades

@[refl] theorem refl (type : DataType) : type.Fades type := Or.inl rfl

theorem undefined (type : DataType) : type.Fades undefined := Or.inr rfl

end Fades

/-- What the rules say of two operands, when one of them has faded or both have. -/
theorem Fades.rule {rule : DataType → DataType → Option DataType} {faded : DataType}
    (hleft : left.Fades left') (hright : right.Fades right') (haccepted : rule left right = some type)
    (hundefined : ∀ left right, left = DataType.undefined ∨ right = DataType.undefined →
      rule left right = some faded) (hfaded : type.Fades faded) :
    ∃ type', rule left' right' = some type' ∧ type.Fades type' := by
  rcases hleft with rfl | rfl
  · rcases hright with rfl | rfl
    · exact ⟨type, haccepted, Fades.refl type⟩
    · exact ⟨faded, hundefined _ _ (Or.inr rfl), hfaded⟩
  · exact ⟨faded, hundefined _ _ (Or.inl rfl), hfaded⟩

theorem accepts_undefined (target : DataType) : target.accepts undefined = true := by
  simp [accepts, isUndefined]

theorem undefined_accepts (value : DataType) : undefined.accepts value = true := by
  simp [accepts, isUndefined]

/-- A target takes what it took, however either has faded. -/
theorem Fades.accepts (htarget : left.Fades left') (hvalue : right.Fades right')
    (h : left.accepts right = true) : left'.accepts right' = true := by
  rcases htarget with rfl | rfl
  · rcases hvalue with rfl | rfl
    · exact h
    · exact accepts_undefined _
  · exact undefined_accepts _

theorem Fades.isCondition (hfades : first.Fades second) (h : first.isCondition = true) :
    second.isCondition = true := by
  rcases hfades with rfl | rfl
  · exact h
  · rfl

theorem Fades.negationResult? (hfades : first.Fades second) (h : first.negationResult? = some type) :
    ∃ type', second.negationResult? = some type' ∧ type.Fades type' := by
  rcases hfades with rfl | rfl
  · exact ⟨type, h, Fades.refl type⟩
  · exact ⟨DataType.undefined, rfl, Fades.undefined type⟩

theorem comparisonResult?_eq_int (h : left.comparisonResult? right = some type) : type = int := by
  unfold comparisonResult? at h
  split_ifs at h <;> exact (Option.some.inj h).symm

/-- A logical operation takes faded operands for conditions. -/
theorem Fades.logicalResult? (hleft : left.Fades left') (hright : right.Fades right')
    (h : left.logicalResult? right = some type) : left'.logicalResult? right' = some type := by
  unfold DataType.logicalResult? at h ⊢
  split at h
  · next hboth =>
      obtain ⟨hleftHolds, hrightHolds⟩ : left.isCondition = true ∧ right.isCondition = true := by
        simpa using hboth
      rw [hleft.isCondition hleftHolds, hright.isCondition hrightHolds, ← h]
      rfl
  · simp at h

/-- An operator accepts what it accepted, and the type of the operation fades with those of the operands. -/
theorem Fades.resultType? {operator : NodeKind} (hleft : left.Fades left') (hright : right.Fades right')
    (h : Operator.resultType? operator left right = some type) :
    ∃ type', Operator.resultType? operator left' right' = some type' ∧ type.Fades type' := by
  unfold Operator.resultType? at h ⊢
  split at h
  case h_1 | h_2 | h_3 | h_4 =>
    refine hleft.rule hright h (fun left right hundefined => ?_) (Fades.undefined type)
    rcases hundefined with rfl | rfl <;> simp [DataType.arithmeticResult?, isUndefined]
  case h_5 =>
    refine hleft.rule hright h (fun left right hundefined => ?_) (Fades.undefined type)
    rcases hundefined with rfl | rfl <;> simp [DataType.moduloResult?, isUndefined]
  case h_6 | h_7 => exact ⟨type, hleft.logicalResult? hright h, Fades.refl type⟩
  case h_8 =>
    obtain rfl := comparisonResult?_eq_int h
    refine hleft.rule hright h (fun left right hundefined => ?_) (Fades.refl int)
    rcases hundefined with rfl | rfl <;> simp [DataType.comparisonResult?, isUndefined]

end FrontEnd.DataType
