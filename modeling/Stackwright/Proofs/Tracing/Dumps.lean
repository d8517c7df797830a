import Stackwright.Proofs.Emission.Writing

/-! # The code of a dump

What a full trace records to show the value on top of the stack, once it is linked: it copies the value,
turns the copy into text, and reports the text. The text of a reference is guarded against null, and the
text of an array is put together in a loop of its own. A dump uses locals that nothing else uses.

* **`Ty.textCode t n k`** — the code at position `n` that turns a value into text, with locals from `k` on.
* **`Ty.dumpCode t sink n k`** — the code of a whole dump. -/

namespace Stackwright

/-! ## The code -/

namespace Ty

/-- The number of locals that turning a value into text uses. -/
def textSlots : Ty → Nat
  | .array e => e.textSlots + 3
  | _ => 0

/-- The array gets a local, and so does the text so far. -/
def arrayHead (k : Nat) : List Op :=
  [.storeLocal k none, .push (.text "\x7b "), .storeLocal (k + 1) none]

/-- How an item is loaded: structs are read through their address. -/
def itemLoad (e : Ty) : List Op := if e.isStruct then [.addressItem, .loadThrough] else [.loadItem]

/-- The text so far, and the next item. -/
def itemHead (e : Ty) (k : Nat) : List Op :=
  [.loadLocal (k + 1), .loadLocal k, .loadLocal (k + 2)] ++ e.itemLoad

/-- The text of an item is added to the text so far. -/
def itemLast (k : Nat) : List Op :=
  [.push (.text ", "), .call Builtin.joinThree, .storeLocal (k + 1) none]

/-- The text of the items is ended. -/
def arrayLast (k : Nat) : List Op :=
  [.loadLocal (k + 1), .push (.text "\x7d"), .call Builtin.joinTwo]

/-- The code that turns an array into text, given that for an item at a position. -/
def arrayCode (e : Ty) (n k : Nat) (item : Nat → List (Instruction Nat)) : List (Instruction Nat) :=
  Op.straight (arrayHead k) ++
    countLoop (k + 2) k (n + 3) (Op.straight (e.itemHead k) ++
      item (n + 6 + (e.itemHead k).length) ++ Op.straight (itemLast k)) ++
    Op.straight (arrayLast k)

/-- The code that turns a value into **text**. -/
def textCode : Ty → Nat → Nat → List (Instruction Nat)
  | .array e, n, k => nullGuard n (arrayCode e (n + 6) k fun m => e.textCode m (k + 3))
  | t, n, _ =>
    if t.isValue then Op.straight [.box t, .call Builtin.textOf]
    else nullGuard n (Op.straight [.call Builtin.textOf])

theorem textSlots_of_not_array {t : Ty} (h : ∀ e, t = .array e → False) : t.textSlots = 0 := by
  cases t with
  | array e => exact (h e rfl).elim
  | _ => rfl

theorem textCode_of_not_array {t : Ty} (h : ∀ e, t = .array e → False) (n k : Nat) :
    t.textCode n k =
      if t.isValue then Op.straight [.box t, .call Builtin.textOf]
      else nullGuard n (Op.straight [.call Builtin.textOf]) := by
  cases t with
  | array e => exact (h e rfl).elim
  | _ => rfl

/-- The code of a **dump**. -/
def dumpCode (t : Ty) (sink : Sink) (n k : Nat) : List (Instruction Nat) :=
  Op.straight [.dup] ++ t.textCode (n + 1) k ++
    Op.straight [.storeLocal (k + t.textSlots) none, .push (.text "//value = "),
      .loadLocal (k + t.textSlots), .call Builtin.joinTwo, .call (Builtin.report sink)]

end Ty

/-! ## What shows a value writes it -/

namespace Emit

variable {e : Emit Unit} {b : Nat} {c c' : Nat → Nat → List (Instruction Nat)}

theorem Writes.congr (h : e.Writes b c) (hc : ∀ n k, c n k = c' n k) : e.Writes b c' := by
  have heq : c = c' := funext fun n => funext fun k => hc n k
  exact heq ▸ h

/-- Operations before a call. -/
theorem Writes.after {e' : Emit Unit} {os : List Op} (h : e.Writes 0 fun _ _ => Op.straight os)
    (h' : e'.Writes b c) :
    (do e; e' : Emit Unit).Writes b fun n k => Op.straight os ++ c (n + os.length) k := by
  have hseq := h.seq h'
  rw [Nat.zero_add] at hseq
  refine hseq.congr fun n k => ?_
  rw [Op.length_straight, Nat.add_zero]

/-- Operations that are recorded one after the other. -/
theorem Writes.then {e' : Emit Unit} {os os' : List Op}
    (h : e.Writes 0 fun _ _ => Op.straight os) (h' : e'.Writes 0 fun _ _ => Op.straight os') :
    (do e; e' : Emit Unit).Writes 0 fun _ _ => Op.straight (os ++ os') :=
  (h.after h').congr fun _ _ => (List.map_append ..).symm

theorem writes_probe (T : Ty) : (probe T).Writes 0 fun _ _ => Op.straight [] :=
  writes_of_recorded fun s => by simp [run_probe_silent, Session.recorded]

/-- Items that are no structs can be loaded. -/
theorem writes_loadItem {element : Ty} (h : element.isStruct = false) :
    (loadItem element).Writes 0 fun _ _ => Op.straight [.loadItem] := by
  obtain ⟨text, htext⟩ : ∃ text, Mnemonic.loadItem element = .ok text := by
    cases element with
    | struct path is fields => cases h
    | _ => exact ⟨_, rfl⟩
  have hload : loadItem element = (do traced text .loadItem; probe element) := by
    rw [loadItem, htext]
    rfl
  rw [hload]
  exact (writes_traced _ _).then (writes_probe _)

/-- An item is loaded by its address if it is a struct. -/
theorem writes_loadItemOf (element : Ty) (k j : Nat) (t : Ty) :
    (loadItemOf (.variable ⟨k, .array element⟩) (.variable ⟨j, t⟩)).Writes 0
      fun _ _ => Op.straight ([.loadLocal k] ++ ([.loadLocal j] ++ element.itemLoad)) := by
  have hitem : (if element.isStruct then do
        loadItemAddress element
        loadThrough element
      else loadItem element : Emit Unit).Writes 0 fun _ _ => Op.straight element.itemLoad := by
    unfold Ty.itemLoad
    cases h : element.isStruct with
    | true =>
      exact ((writes_traced "ldelema" .addressItem).then (writes_probe element)).then
        (writes_traced _ _)
    | false => exact writes_loadItem h
  exact (writes_loadLocal _).then ((writes_loadLocal _).then hitem)

theorem writes_loadText (text : String) :
    (loadText text).Writes 0 fun _ _ => Op.straight [.push (.text text)] := writes_traced _ _

theorem writes_call (m : Method) : (call m).Writes 0 fun _ _ => Op.straight [.call m] :=
  writes_traced _ _

/-- The text of an item is added to the text so far. -/
def addItem (e : Emit Unit) (array text i : Local) : Emit Unit := do
  loadLocal text
  loadItemOf (.variable array) (.variable i)
  e
  loadText ", "
  joinThree
  storeLocal text

/-- The text of an array, with the loop over its items and the end in brackets. -/
theorem arrayText_eq (t : Ty) (e : Emit Unit) : arrayText t e = (do
    let array ← newLocal t "arrayVar"
    storeLocal array
    loadText "\x7b "
    let text ← newLocal .string "arrayValueString"
    storeLocal text
    let i ← newLocal (.primitive .i32) "i"
    (do
      let _ ← openFor (some i) (.constant (.scalar (.i32 0))) (.variable array)
      addItem e array text i
      closeFor)
    (do loadLocal text; loadText "\x7d"; joinTwo)) := by
  simp only [arrayText, addItem, bind_assoc]

theorem writes_addItem {element : Ty} (h : e.Writes b c) (k j i : Nat) :
    (addItem e ⟨k, .array element⟩ ⟨j, .string⟩ ⟨i, .primitive .i32⟩).Writes b fun n m =>
      Op.straight ([.loadLocal j, .loadLocal k, .loadLocal i] ++ element.itemLoad) ++
        c (n + 3 + element.itemLoad.length) m ++
        Op.straight [.push (.text ", "), .call Builtin.joinThree, .storeLocal j none] := by
  have hlast : Writes (do loadText ", "; joinThree; storeLocal ⟨j, .string⟩) 0 fun _ _ =>
      Op.straight [.push (.text ", "), .call Builtin.joinThree, .storeLocal j none] :=
    (writes_loadText _).then ((writes_call _).then (writes_storeLocal _))
  have hall := (writes_loadLocal ⟨j, .string⟩).after ((writes_loadItemOf element k i
    (.primitive .i32)).after (h.seq hlast))
  refine hall.congr fun n m => ?_
  have hposition : n + 1 + (element.itemLoad.length + 1 + 1) = n + 3 + element.itemLoad.length := by
    omega
  simp [Op.straight, hposition]

/-- The text of an array is written with three locals of its own. -/
theorem writes_arrayText {element : Ty} (h : e.Writes b c) :
    (arrayText (.array element) e).Writes (b + 3) fun n k =>
      element.arrayCode n k fun m => c m (k + 3) := by
  have hloop : ∀ k j i : Nat, Writes (do
      let _ ← openFor (some ⟨i, .primitive .i32⟩) (.constant (.scalar (.i32 0)))
        (.variable ⟨k, .array element⟩)
      addItem e ⟨k, .array element⟩ ⟨j, .string⟩ ⟨i, .primitive .i32⟩
      closeFor) b fun n m => countLoop i k n
        (Op.straight ([.loadLocal j, .loadLocal k, .loadLocal i] ++ element.itemLoad) ++
          c (n + 6 + element.itemLoad.length) m ++
          Op.straight [.push (.text ", "), .call Builtin.joinThree, .storeLocal j none]) :=
    fun k j i => (writes_addItem h k j i).loop rfl rfl
  have hlast : ∀ j : Nat, Writes (do loadLocal ⟨j, .string⟩; loadText "\x7d"; joinTwo) 0 fun _ _ =>
      Op.straight [.loadLocal j, .push (.text "\x7d"), .call Builtin.joinTwo] := fun j =>
    (writes_loadLocal _).then ((writes_loadText _).then (writes_call _))
  rw [arrayText_eq]
  refine Writes.congr (Writes.declare fun k => (writes_storeLocal _).after
    ((writes_loadText _).after (Writes.declare fun j => (writes_storeLocal _).after
      (Writes.declare fun i => (hloop k j i).seq (hlast j))))) fun n k => ?_
  have hposition : n + 6 + (element.itemLoad.length + 1 + 1 + 1) =
      n + 1 + 1 + 1 + 6 + element.itemLoad.length := by
    omega
  simp [Ty.arrayCode, Ty.itemHead, Ty.itemLast, Ty.arrayHead, Ty.arrayLast, Op.straight,
    Ty.storedAs?, hposition]

/-- The **full text** of a value is written. -/
theorem writes_toFullText (t : Ty) : (toFullText t).Writes t.textSlots t.textCode := by
  induction t using toFullText.induct with
  | case1 element ih =>
    rw [toFullText]
    exact (writes_arrayText ih).guard
  | case2 t hne hvalue =>
    have hcode : t.textCode = fun _ _ => Op.straight [.box t, .call Builtin.textOf] := by
      funext n k
      rw [Ty.textCode_of_not_array hne, if_pos hvalue]
    rw [toFullText.eq_2 t hne, if_pos hvalue, hcode, Ty.textSlots_of_not_array hne]
    exact (writes_traced _ _).then (writes_call _)
  | case3 t hne hvalue =>
    have hcode : t.textCode = fun n _ => nullGuard n (Op.straight [.call Builtin.textOf]) := by
      funext n k
      rw [Ty.textCode_of_not_array hne, if_neg hvalue]
    rw [toFullText.eq_2 t hne, if_neg hvalue, hcode, Ty.textSlots_of_not_array hne]
    exact (writes_call _).guard

/-- **Showing** a value writes a dump. -/
theorem run_showTop (t : Ty) {s : Session} (hs : 0 < s.labels.entries.size) :
    ∃ s', ((showTop t).run .silent).run s = .ok () s' ∧
      s.Wrote s' (t.textSlots + 1) (t.dumpCode s.sink s.code.size s.locals.size) := by
  have hhead : Writes (do
      traced "Dup" .dup
      toFullText t
      let top ← newLocal .string "topValue"
      storeLocal top
      loadText "//value = "
      loadLocal top
      joinTwo) (t.textSlots + 1) fun n k => Op.straight [.dup] ++ (t.textCode (n + 1) k ++
        Op.straight [.storeLocal (k + t.textSlots) none, .push (.text "//value = "),
          .loadLocal (k + t.textSlots), .call Builtin.joinTwo]) := by
    have htop : Writes (do
        let top ← newLocal .string "topValue"
        storeLocal top
        loadText "//value = "
        loadLocal top
        joinTwo) 1 fun _ k => Op.straight [.storeLocal k none, .push (.text "//value = "),
          .loadLocal k, .call Builtin.joinTwo] :=
      (Writes.declare fun k => (writes_storeLocal _).then ((writes_loadText _).then
        ((writes_loadLocal _).then (writes_call _)))).congr fun _ _ => rfl
    exact (writes_traced _ _).after ((writes_toFullText t).seq htop)
  obtain ⟨s₁, hrun, hwrote⟩ := hhead s hs
  -- the text is written to the sink that the procedure began with
  have hsink : s₁.sink = s.sink := by
    have hfixed := hwrote.grows.fixed
    simp_all
  have hreport : ((call (Builtin.report s₁.sink)).run .silent).run s₁ =
      .ok () (s₁.recorded [.call (Builtin.report s₁.sink)]) := run_traced_silent _ _ _
  refine ⟨s₁.recorded [.call (Builtin.report s₁.sink)], ?_, ?_⟩
  · have heq : showTop t = (do
        (do
          traced "Dup" .dup
          toFullText t
          let top ← newLocal .string "topValue"
          storeLocal top
          loadText "//value = "
          loadLocal top
          joinTwo)
        call (Builtin.report (← get).sink)) := by
      simp only [showTop, bind_assoc]
    rw [heq, run_bind_ok hrun, run_bind_ok (run_get _ _)]
    exact hreport
  · have hall := hwrote.trans (s₁.wrote_recorded [.call (Builtin.report s₁.sink)])
    rw [hsink] at hall ⊢
    simpa [Ty.dumpCode, Op.straight] using hall

end Emit

end Stackwright
