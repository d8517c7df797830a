import Mathlib.Logic.Relation
import Stackwright.Conversion
import Stackwright.Value.Heap

/-! # The order of types

Acceptance is a partial order on every **family** of types that is described consistently: a kind and a
path stand for one definition, and no class derives from an array. (What a type lists need not even be
interfaces for this.) The rules of acceptance are the base chain, the root, the interfaces and covariance.
Transitivity is a case analysis over pairs of rules, in which only the pair of two covariant steps goes on,
to the elements.

* **`Ty.Family F`** — the members of `F` are described consistently.
* **`Ty.implements_iff_reaches`** — an interface is implemented when base links and then interface links
  lead to it.
* **`Ty.accepts_iff`** — the four rules of acceptance, for members of a family.
* **`Ty.accepts_trans`**, **`Ty.accepts_antisymm`** — the order.
* **`Ty.accepts_partial_order`** — the order, the interfaces and the soundness of upcasts, together. -/

namespace Stackwright

namespace Ty

/-! ## (1) Links between types -/

/-- A **base link** leads from a type to its direct base. -/
def BaseLink (s t : Ty) : Prop := s.base? = some t

/-- An **interface link** leads from a type to an interface that it lists. -/
def InterfaceLink (s t : Ty) : Prop := t ∈ s.interfaces

/-- A **family** of types that are described consistently. Everything that a member is made of is a
member as well. -/
structure Family (F : Ty → Prop) : Prop where
  /-- Bases are members. -/
  base : ∀ {t b}, F t → BaseLink t b → F b
  /-- Listed interfaces are members. -/
  listed : ∀ {t i}, F t → InterfaceLink t i → F i
  /-- Elements of arrays are members. -/
  element : ∀ {e}, F (.array e) → F e
  /-- A kind and a path stand for one definition. -/
  eq_of_beq : ∀ {s t}, F s → F t → s == t → s = t
  /-- No class derives from an array. -/
  not_array : ∀ {path base is fs}, F (.klass path base is fs) →
    ∀ a ∈ base.lineage, ¬ a.isArray

variable {F : Ty → Prop} {s t u : Ty}

/-- The root has no base. -/
theorem lineage_object : object.lineage = [object] := rfl

/-- An array type has the same bases as every other. -/
theorem lineage_array (e : Ty) : (array e).lineage = [array e, arrayBase, object] := rfl

/-- The chain of a base is a part of the chain of the type. -/
theorem lineage_subset_of_base {b a : Ty} (hb : BaseLink t b) (ha : a ∈ b.lineage) :
    a ∈ t.lineage := by
  rw [BaseLink] at hb
  rw [lineage_eq t, hb]
  exact List.mem_cons_of_mem _ ha

/-- What is in a base chain is the type itself or in the chain of its base. -/
theorem mem_lineage_iff {a : Ty} : a ∈ t.lineage ↔ a = t ∨ ∃ b, BaseLink t b ∧ a ∈ b.lineage := by
  rw [lineage_eq t, List.mem_cons]
  refine or_congr_right ?_
  cases hb : t.base? with
  | none => simp [BaseLink, hb]
  | some b => simp [BaseLink, hb]

/-- The chain of a base is shorter. -/
theorem length_lineage_of_base {b : Ty} (hb : BaseLink t b) :
    b.lineage.length < t.lineage.length := by
  rw [BaseLink] at hb
  rw [lineage_eq t, hb]
  simp

/-- Base links lead to whatever is in the base chain. -/
theorem reaches_of_mem_lineage {t a : Ty} (ha : a ∈ t.lineage) :
    Relation.ReflTransGen BaseLink t a := by
  rcases mem_lineage_iff.1 ha with rfl | ⟨b, hb, hab⟩
  · exact .refl
  · exact .head hb (reaches_of_mem_lineage hab)
termination_by t.lineage.length
decreasing_by exact length_lineage_of_base hb

/-- The base chain holds what base links lead to. -/
theorem mem_lineage_iff_reaches {a : Ty} :
    a ∈ t.lineage ↔ Relation.ReflTransGen BaseLink t a := by
  constructor
  · exact reaches_of_mem_lineage
  · intro h
    induction h using Relation.ReflTransGen.head_induction_on with
    | refl => exact mem_lineage_self a
    | head hb _ ih => exact lineage_subset_of_base hb ih

/-- Base chains are **transitive**. -/
theorem mem_lineage_trans (hts : t ∈ s.lineage) (hut : u ∈ t.lineage) : u ∈ s.lineage :=
  mem_lineage_iff_reaches.2
    ((mem_lineage_iff_reaches.1 hts).trans (mem_lineage_iff_reaches.1 hut))

/-- A member of the chain of another has a chain that is no longer. -/
theorem length_lineage_le (hts : t ∈ s.lineage) : t.lineage.length ≤ s.lineage.length := by
  have hreach := mem_lineage_iff_reaches.1 hts
  induction hreach with
  | refl => exact Nat.le_refl _
  | tail hreach hb ih =>
    have hlt := length_lineage_of_base hb
    have hle := ih (mem_lineage_iff_reaches.2 hreach)
    omega

/-- Two types that are in the chain of each other are one. -/
theorem mem_lineage_antisymm (hts : t ∈ s.lineage) (hst : s ∈ t.lineage) : s = t := by
  rcases mem_lineage_iff.1 hts with rfl | ⟨b, hb, htb⟩
  · rfl
  · -- the chain of the base would be both shorter and no shorter
    have hshort := length_lineage_of_base hb
    have htle := length_lineage_le htb
    have hsle := length_lineage_le hst
    omega

/-! ## (2) Interfaces -/

/-- A listed interface is a part of the type that lists it. -/
theorem sizeOf_interface_lt {i : Ty} (h : InterfaceLink t i) : sizeOf i < sizeOf t := by
  rw [InterfaceLink] at h
  cases t with
  | enumeration | struct | interface | klass =>
    have hlt := List.sizeOf_lt_of_mem h
    simp only [interfaces] at hlt
    simp only [enumeration.sizeOf_spec, struct.sizeOf_spec, interface.sizeOf_spec,
      klass.sizeOf_spec]
    omega
  | _ => exact absurd h List.not_mem_nil

/-- So is every interface that interface links lead to. -/
theorem sizeOf_lt_of_reaches {i : Ty} (h : Relation.TransGen InterfaceLink t i) :
    sizeOf i < sizeOf t := by
  induction h with
  | single h => exact sizeOf_interface_lt h
  | tail _ h ih => exact Nat.lt_trans (sizeOf_interface_lt h) ih

/-- A type lists an interface that it names or that one of the named ones lists. -/
theorem lists_iff {i : Ty} :
    t.lists i ↔ ∃ j, InterfaceLink t j ∧ (j == i ∨ j.lists i) := by
  rw [lists_eq, anyLists_eq, List.any_eq_true]
  simp only [InterfaceLink, Bool.or_eq_true]

namespace Family

/-- Whatever a base chain of a member holds is a member. -/
theorem lineage (hF : Family F) (ht : F t) {a : Ty} (ha : a ∈ t.lineage) : F a := by
  have hreach := mem_lineage_iff_reaches.1 ha
  induction hreach with
  | refl => exact ht
  | tail hreach hb ih => exact hF.base (ih (mem_lineage_iff_reaches.2 hreach)) hb

/-- In a family, a test for the same type is a test for the type. -/
theorem beq_iff_eq (hF : Family F) (hs : F s) (ht : F t) : s == t ↔ s = t := by
  constructor
  · exact hF.eq_of_beq hs ht
  · rintro rfl
    exact beq_rfl s

/-- The search of a base chain finds members of the chain. -/
theorem any_lineage_iff (hF : Family F) (hs : F s) (ht : F t) :
    s.lineage.any (· == t) ↔ t ∈ s.lineage := by
  rw [List.any_eq_true]
  constructor
  · rintro ⟨a, ha, hat⟩
    rw [hF.beq_iff_eq (hF.lineage hs ha) ht] at hat
    rwa [← hat]
  · intro h
    exact ⟨t, h, beq_rfl t⟩

/-- Interface links lead to whatever a type lists. An interface is described within the types that list
it, so the recursion is on the description. -/
theorem reaches_of_lists (hF : Family F) {t i : Ty} (ht : F t) (hi : F i) (h : t.lists i) :
    Relation.TransGen InterfaceLink t i := by
  obtain ⟨j, hj, hji⟩ := lists_iff.1 h
  have hFj := hF.listed ht hj
  rcases hji with hsame | hlists
  · rw [hF.beq_iff_eq hFj hi] at hsame
    exact .single (hsame ▸ hj)
  · exact .head hj (reaches_of_lists hF hFj hi hlists)
termination_by sizeOf t
decreasing_by exact sizeOf_interface_lt hj

/-- A type lists what interface links lead to. -/
theorem lists_iff_reaches (hF : Family F) (ht : F t) {i : Ty} (hi : F i) :
    t.lists i ↔ Relation.TransGen InterfaceLink t i := by
  constructor
  · exact hF.reaches_of_lists ht hi
  · intro h
    induction h using Relation.TransGen.head_induction_on with
    | single hj => exact lists_iff.2 ⟨i, hj, .inl (beq_rfl i)⟩
    | head hj _ ih => exact lists_iff.2 ⟨_, hj, .inr (ih (hF.listed ht hj))⟩

/-- Listing is **transitive**. -/
theorem lists_trans (hF : Family F) (hs : F s) (ht : F t) (hu : F u) (hst : s.lists t)
    (htu : t.lists u) : s.lists u := by
  rw [hF.lists_iff_reaches hs ht] at hst
  rw [hF.lists_iff_reaches ht hu] at htu
  rw [hF.lists_iff_reaches hs hu]
  exact hst.trans htu

/-- No two types list each other. -/
theorem not_lists_of_lists (hF : Family F) (hs : F s) (ht : F t) (hst : s.lists t) :
    ¬ t.lists s := by
  intro hts
  have hlt := sizeOf_lt_of_reaches ((hF.lists_iff_reaches hs ht).1 hst)
  have hgt := sizeOf_lt_of_reaches ((hF.lists_iff_reaches ht hs).1 hts)
  omega

end Family

/-- A type implements what a type in its base chain lists. -/
theorem implements_iff {i : Ty} : t.implements i ↔ ∃ d ∈ t.lineage, d.lists i := by
  rw [implements, List.any_eq_true]

/-- A type implements what its bases implement. -/
theorem implements_of_lineage {i : Ty} (hts : t ∈ s.lineage) (h : t.implements i) :
    s.implements i := by
  obtain ⟨d, hd, hlists⟩ := implements_iff.1 h
  exact implements_iff.2 ⟨d, mem_lineage_trans hts hd, hlists⟩

/-- A type **implements** what base links and then interface links lead to. -/
theorem implements_iff_reaches (hF : Family F) (ht : F t) {i : Ty} (hi : F i) :
    t.implements i ↔
      ∃ d, Relation.ReflTransGen BaseLink t d ∧ Relation.TransGen InterfaceLink d i := by
  rw [implements_iff]
  refine exists_congr fun d => ?_
  constructor
  · rintro ⟨hd, hlists⟩
    exact ⟨mem_lineage_iff_reaches.1 hd, (hF.lists_iff_reaches (hF.lineage ht hd) hi).1 hlists⟩
  · rintro ⟨hd, hreach⟩
    have hmem := mem_lineage_iff_reaches.2 hd
    exact ⟨hmem, (hF.lists_iff_reaches (hF.lineage ht hmem) hi).2 hreach⟩

/-- An interface has no bases. -/
theorem lineage_of_isInterface (ht : t.isInterface) : t.lineage = [t] := by
  cases t <;> first | rfl | cases ht

/-- An interface implements what it lists. -/
theorem implements_of_isInterface {i : Ty} (ht : t.isInterface) : t.implements i = t.lists i := by
  rw [implements, lineage_of_isInterface ht, List.any_cons, List.any_nil, Bool.or_false]

/-! ## (3) The rules of acceptance -/

/-- The root is of its kind alone. -/
theorem kind_eq_object_iff : t.kind = .object ↔ t = .object := by
  cases t <;> simp [kind]

theorem isInterface_iff : t.isInterface ↔ t.kind = .interface := by
  rw [isInterface, beq_iff_eq]

/-- The array types in a base chain are the type itself. -/
theorem Family.eq_of_array_mem (hF : Family F) (hs : F s) {e : Ty} (h : array e ∈ s.lineage) :
    s = array e := by
  cases s with
  | klass path base is fs =>
    rcases List.mem_cons.1 h with heq | hmem
    · cases heq
    · exact absurd rfl (hF.not_array hs _ hmem)
  | array e' =>
    rcases List.mem_cons.1 h with heq | hmem
    · exact heq.symm
    · simp [arrayBase] at hmem
  | _ => simp [Ty.lineage, valueType, enumBase] at h

/-- **The four rules**: a member accepts another when it is in its base chain, when it is the root, when
it is an interface that the other implements, or by covariance. -/
theorem accepts_iff (hF : Family F) (hs : F s) (ht : F t) :
    t.accepts s ↔ t ∈ s.lineage ∨ t = .object ∨ (t.isInterface ∧ s.implements t) ∨
      ∃ e f, t = .array e ∧ s = .array f ∧ e.isReference ∧ f.isReference ∧ e.accepts f := by
  -- two arrays are compared by their elements, everything else by its base chain and its interfaces
  by_cases harrays : ∃ e f, t = .array e ∧ s = .array f
  · obtain ⟨e, f, rfl, rfl⟩ := harrays
    have hsame : e == f ↔ array e ∈ (array f).lineage := by
      rw [hF.beq_iff_eq (hF.element ht) (hF.element hs)]
      simp [lineage_array, arrayBase]
    rw [accepts, Bool.or_eq_true, Bool.or_eq_true, hF.any_lineage_iff hs ht, hsame, or_self]
    simp [isInterface, kind, Bool.and_eq_true, and_assoc]
  · have hunfold : t.accepts s ↔ (∃ a ∈ s.lineage, a == t) ∨ t.kind = .object ∨
        (t.kind = .interface ∧ s.implements t) := by
      unfold accepts
      split
      · exact absurd ⟨_, _, rfl, rfl⟩ harrays
      · rw [Bool.or_eq_true, List.any_eq_true]
        refine or_congr_right ?_
        cases t <;> simp [kind]
    have hcovariant : ¬ ∃ e f, t = .array e ∧ s = .array f ∧ e.isReference ∧ f.isReference ∧
        e.accepts f := by
      rintro ⟨e, f, hte, hsf, -⟩
      exact harrays ⟨e, f, hte, hsf⟩
    rw [hunfold, ← List.any_eq_true, hF.any_lineage_iff hs ht, ← kind_eq_object_iff, isInterface_iff]
    simp only [hcovariant, or_false]

/-! ## (4) The order -/

/-- Acceptance is **transitive**. Only two covariant steps go on, and they go on with the elements. -/
theorem accepts_trans (hF : Family F) {s t u : Ty} (hs : F s) (ht : F t) (hu : F u)
    (hst : t.accepts s) (htu : u.accepts t) : u.accepts s := by
  have hst' := (accepts_iff hF hs ht).1 hst
  have htu' := (accepts_iff hF ht hu).1 htu
  rw [accepts_iff hF hs hu]
  rcases htu' with hbase | rfl | ⟨hinterface, himplements⟩ | ⟨e, f, rfl, rfl, he, hf, hef⟩
  · -- the outer step follows the base chain of the middle type
    rcases hst' with hchain | rfl | ⟨hti, -⟩ | ⟨f, g, rfl, rfl, -⟩
    · exact .inl (mem_lineage_trans hchain hbase)
    · -- the root has no base
      rw [lineage_object, List.mem_singleton] at hbase
      exact .inr (.inl hbase)
    · -- nor has an interface
      rw [lineage_of_isInterface hti, List.mem_singleton] at hbase
      subst hbase
      exact (accepts_iff hF hs hu).1 hst
    · -- the bases of one array type are those of every other
      rcases List.mem_cons.1 hbase with rfl | hmem
      · exact (accepts_iff hF hs hu).1 hst
      · exact .inl (List.mem_cons_of_mem _ hmem)
  · exact .inr (.inl rfl)
  · -- the outer step goes to an interface of the middle type
    refine .inr (.inr (.inl ⟨hinterface, ?_⟩))
    rcases hst' with hchain | rfl | ⟨hti, hsi⟩ | ⟨f, g, rfl, rfl, -⟩
    · exact implements_of_lineage hchain himplements
    · cases himplements
    · rw [implements_of_isInterface hti] at himplements
      obtain ⟨d, hd, hdt⟩ := implements_iff.1 hsi
      exact implements_iff.2 ⟨d, hd, hF.lists_trans (hF.lineage hs hd) ht hu hdt himplements⟩
    · cases himplements
  · -- the outer step is covariant, so the middle type is an array
    rcases hst' with hchain | hroot | ⟨hti, -⟩ | ⟨f', g, hf', rfl, -, hg, hfg⟩
    · obtain rfl := hF.eq_of_array_mem hs hchain
      exact .inr (.inr (.inr ⟨e, f, rfl, rfl, he, hf, hef⟩))
    · cases hroot
    · cases hti
    · cases hf'
      have heg := accepts_trans hF (hF.element hs) (hF.element ht) (hF.element hu) hfg hef
      exact .inr (.inr (.inr ⟨e, g, rfl, rfl, he, hg, heg⟩))
termination_by sizeOf u

/-- Acceptance is **antisymmetric**: two types that accept each other are one. -/
theorem accepts_antisymm (hF : Family F) {s t : Ty} (hs : F s) (ht : F t) (hst : t.accepts s)
    (hts : s.accepts t) : s = t := by
  have hst' := (accepts_iff hF hs ht).1 hst
  have hts' := (accepts_iff hF ht hs).1 hts
  rcases hst' with hchain | rfl | ⟨hti, hsi⟩ | ⟨e, f, rfl, rfl, -, -, hef⟩
  · rcases hts' with hback | rfl | ⟨hsi, -⟩ | ⟨f, e, rfl, rfl, -⟩
    · exact mem_lineage_antisymm hchain hback
    · rw [lineage_object, List.mem_singleton] at hchain
      exact hchain.symm
    · rw [lineage_of_isInterface hsi, List.mem_singleton] at hchain
      exact hchain.symm
    · exact hF.eq_of_array_mem hs hchain
  · rcases hts' with hback | rfl | ⟨-, himplements⟩ | ⟨_, _, -, hroot, -⟩
    · rw [lineage_object, List.mem_singleton] at hback
      exact hback
    · rfl
    · cases himplements
    · cases hroot
  · rcases hts' with hback | rfl | ⟨hsi', hti'⟩ | ⟨_, _, -, rfl, -⟩
    · rw [lineage_of_isInterface hti, List.mem_singleton] at hback
      exact hback
    · cases hsi
    · -- two interfaces would each be described within the other
      rw [implements_of_isInterface hsi'] at hsi
      rw [implements_of_isInterface hti] at hti'
      exact absurd hti' (hF.not_lists_of_lists hs ht hsi)
    · cases hti
  · rcases hts' with hback | hroot | ⟨hsi, -⟩ | ⟨f', e', hf', he', -, -, hfe⟩
    · exact (hF.eq_of_array_mem ht hback).symm
    · cases hroot
    · cases hsi
    · cases hf'
      cases he'
      -- two array types that accept each other have elements that do
      have heq := accepts_antisymm hF (hF.element hs) (hF.element ht) hef hfe
      rw [heq]
termination_by sizeOf s

/-- A planned **upcast** goes to a type that accepts the source. -/
theorem accepts_of_upcast {isAddress : Bool}
    (h : Conversion.between s t isAddress = .ok .upcast) : t.accepts s := by
  rw [Conversion.between] at h
  split at h
  · cases h
  split at h
  · rw [Conversion.toValue] at h
    split at h
    · split at h <;> cases h
    · split at h <;> cases h
  · rw [Conversion.toReference] at h
    split at h
    next hacc => exact hacc
    · split at h <;> cases h

/-! ## (5) An example -/

namespace Kennel

/-- What has a name. -/
def named : Ty := .interface "Named" [] []

/-- What is kept, and has a name. -/
def pet : Ty := .interface "Pet" [named] []

/-- Animals are pets. -/
def animal : Ty := .klass "Animal" .object [pet] [("name", .string)]

/-- Dogs are animals. -/
def dog : Ty := .klass "Dog" animal [] []

/-- The types of the **kennel**. -/
def types : List Ty := [.object, arrayBase, named, pet, animal, dog, .array animal, .array dog]

/-- The kennel is described consistently. -/
theorem family : Family (· ∈ types) where
  base := by
    intro t b ht hb
    simp only [types, List.mem_cons, List.not_mem_nil, or_false] at ht ⊢
    rcases ht with rfl | rfl | rfl | rfl | rfl | rfl | rfl | rfl <;> cases hb <;> simp
  listed := by
    intro t i ht hi
    simp only [types, List.mem_cons, List.not_mem_nil, or_false] at ht ⊢
    rcases ht with rfl | rfl | rfl | rfl | rfl | rfl | rfl | rfl <;>
      simp_all [InterfaceLink, interfaces, arrayBase, named, pet, animal, dog]
  element := by
    intro e he
    simp only [types, List.mem_cons, List.not_mem_nil, or_false] at he ⊢
    rcases he with h | h | h | h | h | h | h | h <;> cases h <;> simp
  eq_of_beq := by
    intro s t hs ht hst
    have hpath := (beq_iff.1 hst).2
    simp only [types, List.mem_cons, List.not_mem_nil, or_false] at hs ht
    rcases hs with rfl | rfl | rfl | rfl | rfl | rfl | rfl | rfl <;>
      rcases ht with rfl | rfl | rfl | rfl | rfl | rfl | rfl | rfl <;>
        first | rfl | exact absurd hpath (by decide)
  not_array := by
    intro path base is fs ht a ha
    simp only [types, List.mem_cons, List.not_mem_nil, or_false] at ht
    revert a
    rcases ht with h | h | h | h | h | h | h | h <;> cases h <;> decide

end Kennel

/-! ## (6) Assignability -/

/-- **Assignability is a partial order** on every family of types. An interface is implemented exactly
when base links and then at least one interface link lead to it, and a planned upcast is sound: whatever
has a runtime type that the source accepts has one that the target accepts. -/
theorem accepts_partial_order (hF : Family F) :
    (∀ t, F t → t.accepts t) ∧
    (∀ s t u, F s → F t → F u → t.accepts s → u.accepts t → u.accepts s) ∧
    (∀ s t, F s → F t → t.accepts s → s.accepts t → s == t) ∧
    (∀ c i, F c → F i → (c.implements i ↔
      ∃ d, Relation.ReflTransGen BaseLink c d ∧ Relation.TransGen InterfaceLink d i)) ∧
    (∀ s t isAddress, F s → F t → Conversion.between s t isAddress = .ok .upcast →
      ∀ (h : Heap) (v : Value) r, h.typeOf? v = some r → F r → s.accepts r → t.accepts r) := by
  refine ⟨fun t _ => accepts_self t, fun s t u hs ht hu hst htu => accepts_trans hF hs ht hu hst htu,
    fun s t hs ht hst hts => ?_, fun c i hc hi => implements_iff_reaches hF hc hi,
    fun s t isAddress hs ht hplan h v r _ hr hsr => ?_⟩
  · exact (hF.beq_iff_eq hs ht).2 (accepts_antisymm hF hs ht hst hts)
  · exact accepts_trans hF hr hs ht hsr (accepts_of_upcast hplan)

/-- In the kennel, a dog has a name by its base and two interfaces, nothing that has a name need be a dog,
and what is found in an array of dogs may go where animals are expected. -/
theorem kennel_partial_order :
    Family (· ∈ Kennel.types) ∧ Kennel.named.accepts Kennel.dog ∧
      ¬ Kennel.dog.accepts Kennel.named ∧
      (∃ d, Relation.ReflTransGen BaseLink Kennel.dog d ∧
        Relation.TransGen InterfaceLink d Kennel.named) ∧
      Conversion.between (.array Kennel.dog) (.array Kennel.animal) false = .ok .upcast ∧
      (Ty.array Kennel.animal).accepts (.array Kennel.dog) := by
  obtain ⟨-, htrans, hantisymm, himplements, hupcast⟩ := accepts_partial_order Kennel.family
  have hdog : Kennel.dog ∈ Kennel.types := by simp [Kennel.types]
  have hnamed : Kennel.named ∈ Kennel.types := by simp [Kennel.types]
  have hanimal : Kennel.animal ∈ Kennel.types := by simp [Kennel.types]
  have hdogs : Ty.array Kennel.dog ∈ Kennel.types := by simp [Kennel.types]
  have hanimals : Ty.array Kennel.animal ∈ Kennel.types := by simp [Kennel.types]
  have hplan : Conversion.between (.array Kennel.dog) (.array Kennel.animal) false = .ok .upcast := by
    rfl
  have hname := htrans _ _ _ hdog hanimal hnamed (by decide) (by decide)
  refine ⟨Kennel.family, hname, fun hback => ?_, (himplements _ _ hdog hnamed).1 (by decide), hplan, ?_⟩
  · exact absurd (hantisymm _ _ hdog hnamed hname hback) (by decide)
  · -- an array of dogs that a heap holds
    let h : Heap := { arrays := #[⟨Kennel.dog, #[]⟩] }
    exact hupcast _ _ false hdogs hanimals hplan h (.array ⟨0⟩) _ rfl hdogs (accepts_self _)

end Ty

end Stackwright
