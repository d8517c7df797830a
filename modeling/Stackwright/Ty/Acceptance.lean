import Stackwright.Ty.Basic

/-! # Assignability

A location of type `t` accepts a value of type `s` without a conversion when `t` is `s` or one of its
bases, when `t` is the root, when `t` is an interface that `s` implements, or when both are arrays of
references and the elements are assignable (arrays are **covariant**). -/

namespace Stackwright

namespace Ty

/-- The type and its **base chain**, most derived first. -/
def lineage : Ty → List Ty
  | .object => [.object]
  | .string => [.string, .object]
  | .primitive p => [.primitive p, valueType, .object]
  | .array e => [.array e, arrayBase, .object]
  | .enumeration path p is fs => [.enumeration path p is fs, enumBase, valueType, .object]
  | .struct path is fs => [.struct path is fs, valueType, .object]
  | .interface path is fs => [.interface path is fs]
  | .klass path base is fs => .klass path base is fs :: base.lineage

/-- The chain starts at the type and goes on with the chain of its base. -/
theorem lineage_eq (t : Ty) :
    t.lineage = t :: (t.base?.map lineage).getD [] := by
  cases t <;> rfl

theorem mem_lineage_self (t : Ty) : t ∈ t.lineage := by
  rw [lineage_eq]; exact List.mem_cons_self

mutual

/-- Whether a type lists an interface, itself or through the interfaces that those extend. -/
def lists : Ty → Ty → Bool
  | .enumeration _ _ is _, target | .struct _ is _, target | .interface _ is _, target
  | .klass _ _ is _, target => anyLists is target
  | .object, _ | .string, _ | .primitive _, _ | .array _, _ => false

/-- Whether an interface is in a list, or extended by one of the list. -/
def anyLists : List Ty → Ty → Bool
  | [], _ => false
  | i :: rest, target => i == target || i.lists target || anyLists rest target

end

/-- Listing is about the interfaces of a type only. -/
theorem lists_eq (t target : Ty) : t.lists target = anyLists t.interfaces target := by
  cases t <;> simp [lists, anyLists, interfaces]

theorem anyLists_eq (is : List Ty) (target : Ty) :
    anyLists is target = is.any fun i => i == target || i.lists target := by
  induction is with
  | nil => simp [anyLists]
  | cons i rest ih => simp [anyLists, ih]

/-- Whether the type or one of its bases **implements** an interface. -/
def implements (t target : Ty) : Bool := t.lineage.any (·.lists target)

/-- Whether a location of the first type **accepts** a value of the second. -/
def accepts : Ty → Ty → Bool
  | .array target, .array source =>
    source.array.lineage.any (· == .array target) || target == source ||
      (target.isReference && source.isReference && target.accepts source)
  | t, s =>
    s.lineage.any (· == t) ||
      (match t.kind with
      | .object => true
      | .interface => s.implements t
      | _ => false)

@[simp] theorem accepts_self (t : Ty) : t.accepts t := by
  have h : t.lineage.any (· == t) = true :=
    List.any_eq_true.2 ⟨t, mem_lineage_self t, beq_rfl t⟩
  unfold accepts
  split <;> simp_all

/-! ## Representation -/

/-- Whether a box of the first type can be **unboxed** as the second: the types are the same, or one of
them is an enumeration stored as the other's kind. -/
def unboxesAs (found target : Ty) : Bool :=
  found == target ||
    ((found.isEnum || target.isEnum) && found.storedAs?.isSome &&
      found.storedAs? == target.storedAs?)

end Ty

end Stackwright
