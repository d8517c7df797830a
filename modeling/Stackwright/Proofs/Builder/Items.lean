import Stackwright.Proofs.Builder.Standing
import Stackwright.Proofs.Emission.Stores

/-! # What stores keep

A store into an item of an array leaves every array as it was when it stops. When it is done, the items of
all arrays conform to the element types of their arrays **exactly when what is stored conforms** to the
element type of its own array. That is looked at by the untyped base of all arrays alone: elsewhere an
array whose items are of a more derived type than the code knows is stored into all the same.

* **`Operand.Stores.conforms_iff`** — when what is stored conforms.
* **`Builder.stores_keep_items`** — stores, wherever they stand in a procedure. -/

namespace Stackwright

namespace Operand.Stores

variable {a v : Operand} {m : Machine} {h : Heap} {element t : Ty} {w : Value}

/-- An array type is not the untyped base of all arrays. -/
theorem not_base_of_itemType {u : Ty} (hu : u.itemType = .ok t) : ¬ u == .arrayBase := by
  intro hbase
  cases u with
  | array e => cases (Ty.beq_iff.1 hbase).1
  | _ => cases hu

/-- What the untyped base stores into an array of references **conforms**. -/
theorem conforms_of_base (hw : a.Stores v m h element w) (ha : a.type == .arrayBase)
    (helement : element.isReference) : h.Conforms w element := by
  cases hw with
  | typed ht => exact absurd ha (not_base_of_itemType ht)
  | base _ hx hw => exact hw.2 fun hmis => Heap.not_isValue_of_isReference helement hmis.1

/-- What is stored by the element type that the code knows **conforms to that** unless it is misconverted. -/
theorem conforms_known (hw : a.Stores v m h element w) (ht : a.type.itemType = .ok t)
    (hplanned : ∀ c u, Conversion.between v.type t false = .ok c → m.operand? v = some u →
      ¬ c.Misconverts v.loadedType t false h u) : h.Conforms w t := by
  cases hw with
  | typed ht' hc hu hw hx =>
    cases ht.symm.trans ht'
    subst hw
    have hconforms := hx.2 (hplanned _ _ hc hu)
    by_cases hvalue : t.isValue
    · exact hconforms.fit hvalue
    · rwa [Heap.storedAs_of_not_isValue hvalue, Value.fit_none]
  | base ha => exact absurd ha (not_base_of_itemType ht)

/-- So in an array of references it conforms **exactly when** the element type of the array accepts its
runtime type, and nothing has looked at that. -/
theorem conforms_iff (hw : a.Stores v m h element w) (ht : a.type.itemType = .ok t)
    (hreference : t.isReference) (helement : element.isReference)
    (hplanned : ∀ c u, Conversion.between v.type t false = .ok c → m.operand? v = some u →
      ¬ c.Misconverts v.loadedType t false h u) :
    h.Conforms w element ↔ ∀ f, h.typeOf? w = some f → element.accepts f :=
  (hw.conforms_known ht hplanned).reference_iff hreference helement

end Operand.Stores

namespace Builder

/-- **Stores and items.** Wherever an accepted store into an item of an array stands in a procedure, at
every level, and its code is reached with slots that hold values of their types: when it stops, every
array is as it was. When it is done, one item of the array is set, and nothing else but boxes and slots of
its own. If every item conformed to the element type of its array, then every item does so again exactly
when what was stored conforms to the element type of that array. -/
theorem stores_keep_items {number : Nat} {name : String} {signature : Signature} {sink : Sink}
    {level : TraceDetail} {cs cs' : List Call} {a i v : Operand} {p : Procedure}
    (hissued : ∀ call ∈ cs ++ .perform (.storeItemOf a i v) :: cs', ∀ l ∈ call.handed, l.Issued)
    (hbelow : ∀ s, ((begin number name signature sink level).builder.after cs).state = .building s →
      ∀ x ∈ [a, i, v], x.Below s.locals.size)
    (hp : ((begin number name signature sink level).builder.after
      (cs ++ .perform (.storeItemOf a i v) :: cs')).finish.result = .ok p) :
    ∃ s s', ((begin number name signature sink level).builder.after cs).state = .building s ∧
      ((begin number name signature sink level).builder.after
        (cs ++ [.perform (.storeItemOf a i v)])).state = .building s' ∧
      ∀ m, (∀ x ∈ [a, i, v], x.Sound m) →
        (∀ e m', p.Stops s.code.size s'.code.size m e m' → m'.world.heap.arrays = m.world.heap.arrays) ∧
        ∀ m', p.Crosses s.code.size s'.code.size m m' →
          ∃ b j w h, m.operand? a = some (.array b) ∧ m.world.heap.Adds h ∧ h.checkItem b j = .ok () ∧
            m'.world.heap = h.setItem b j w ∧ a.Stores v m h (h.arrayCell b).element w ∧
            (m.world.heap.ItemsConform →
              (m'.world.heap.ItemsConform ↔ h.Conforms w (h.arrayCell b).element)) := by
  obtain ⟨s, s', hs, hs', hstands⟩ := stands_of_after hissued hp
  obtain ⟨last, hrecords⟩ := Emit.records_storeItemOf a i v
  -- the call recorded a row of loads with one store behind it
  obtain ⟨os, n, hstored, hfirst, hn, hlast, hleads⟩ := hstands.leadsThen rfl hrecords
  have hsize : ({ s' with notices := #[] } : Session).code.size = n + 1 := hn
  refine ⟨s, { s' with notices := #[] }, hs, hs', fun m hsound => ?_⟩
  rw [hsize]
  have hk := hbelow s hs
  have hwhole := (hleads m).behind hlast hfirst
  refine ⟨fun e m' hstop => ?_, fun m' hcross => ?_⟩
  · exact hstored.arrays_of_error hsound hk (hwhole.stops hstop)
  · -- a crossing stretch has played the whole row, so the store has gone through
    obtain ⟨m₁, hplayed, hrun⟩ := hwhole.crosses hcross
    obtain ⟨haside, z, hz, hsets⟩ := hplayed.stores hstored hsound hk
    rw [hrun] at hsets
    cases hsets with
    | @item b j w _ harray hw hcheck hheap =>
      subst harray
      refine ⟨b, j, w, m₁.world.heap, hz, haside.heap, hcheck, hheap, hw, fun hitems => ?_⟩
      rw [hheap]
      exact Heap.itemsConform_setItem_iff (hitems.adds haside.heap) hcheck

/-- The store of a number into the first item of an array of objects. -/
def storeNumber : Call :=
  .perform (.storeItemOf (.argument ⟨0, .array .object⟩) (.constant (.scalar (.word .i32 0)))
    (.constant (.scalar (.word .i32 5))))

/-- A procedure that makes it. -/
def numberStored : Procedure where
  name := "f"
  signature := ⟨[.array .object], none⟩
  locals := []
  code := #[.op (.loadArg 0), .op (.push (.ofInt32 0)), .op (.push (.ofInt32 5)), .op (.box (.primitive .i32)),
    .op (.storeItem none), .ret]

theorem finish_numberStored :
    ((begin 1 "f" ⟨[.array .object], none⟩ .log .off).builder.after ([] ++ [storeNumber])).finish.result =
      .ok numberStored := by
  with_unfolding_all rfl

/-- It is called on an array of one string. -/
def stringGiven : Machine :=
  ⟨⟨#[.array ⟨0⟩], #[], []⟩, { heap := { arrays := #[⟨.string, #[.null]⟩] } }⟩

/-- And it leaves a number in it. -/
def numberLeft : Machine :=
  ⟨⟨#[.array ⟨0⟩], #[], []⟩,
    { heap := { arrays := #[⟨.string, #[.boxed ⟨0⟩]⟩], boxes := #[⟨.primitive .i32, .ofInt32 5⟩] } }⟩

theorem itemsConform_stringGiven : stringGiven.world.heap.ItemsConform := by
  rintro ⟨n⟩ j v hv
  cases n with
  | zero =>
    cases j with
    | zero =>
      cases hv
      exact ⟨fun _ => False, fun _ hb => hb.elim, rfl⟩
    | succ j => cases hv
  | succ n => cases hv

/-- The array of strings comes to hold a number, for the store is done by the type that the code knows. -/
theorem stores_keep_items_number :
    ((begin 1 "f" ⟨[.array .object], none⟩ .log .off).builder.after ([] ++ [storeNumber])).finish.result =
        .ok numberStored ∧
      numberStored.Crosses 0 5 stringGiven numberLeft ∧ stringGiven.world.heap.ItemsConform ∧
      ∃ h w, stringGiven.world.heap.Adds h ∧ ¬ h.Conforms w .string ∧ ¬ numberLeft.world.heap.ItemsConform := by
  have hissued : ∀ call ∈ [] ++ [storeNumber], ∀ l ∈ call.handed, l.Issued := by
    intro call hcall l hl
    obtain rfl := List.mem_singleton.1 hcall
    exact absurd hl List.not_mem_nil
  have hcross : numberStored.Crosses 0 5 stringGiven numberLeft :=
    .next (by decide) (by decide) rfl rfl <| .next (by decide) (by decide) rfl rfl <|
      .next (by decide) (by decide) rfl rfl <| .next (by decide) (by decide) rfl rfl <|
        .next (by decide) (by decide) rfl rfl (.here _ _)
  obtain ⟨s, s', hs, hs', hrun⟩ := stores_keep_items hissued
    (fun s _ x hx l hl => by
      simp only [List.mem_cons, List.not_mem_nil, or_false] at hx
      rcases hx with rfl | rfl | rfl <;> exact absurd hl List.not_mem_nil) finish_numberStored
  cases hs
  cases hs'
  have hsound : ∀ x ∈ [Operand.argument ⟨0, .array .object⟩, .constant (.scalar (.word .i32 0)),
      .constant (.scalar (.word .i32 5))], x.Sound stringGiven := by
    intro x hx
    simp only [List.mem_cons, List.not_mem_nil, or_false] at hx
    rcases hx with rfl | rfl | rfl
    · exact ⟨.array ⟨0⟩, rfl, fun _ => False, fun _ hb => hb.elim, rfl, rfl⟩
    · exact trivial
    · exact trivial
  obtain ⟨b, j, w, h, hb, hadds, -, -, -, hiff⟩ := (hrun stringGiven hsound).2 numberLeft hcross
  cases hb
  have hiff := hiff itemsConform_stringGiven
  rw [hadds.arrayCell] at hiff
  have hleft : ¬ numberLeft.world.heap.ItemsConform := by
    intro hall
    obtain ⟨good, -, -, hacc, -⟩ := hall ⟨0⟩ 0 (.boxed ⟨0⟩) rfl
    cases hacc
  exact ⟨finish_numberStored, hcross, itemsConform_stringGiven, h, w, hadds, fun hw => hleft (hiff.2 hw), hleft⟩

end Builder

end Stackwright
