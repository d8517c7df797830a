import Stackwright.Builtin
import Stackwright.Code.Instruction
import Stackwright.Machine.Arithmetic
import Stackwright.Machine.State

/-! # Steps

What each instruction **does**. An operation pops its operands, the last one first, and pushes its
result; a jump says where to go on; the return hands back a value. -/

namespace Stackwright

namespace Exec

/-- Stops because a value is of another type than a cast asks for. A value without a type of its own is
shown as in diagnostics. -/
def refuseCast {α : Type} (found : Option Ty) (v : Value) (target : Ty) : Exec α := do
  let source ← match found with
    | some t => pure t.path
    | none => return ← fail (.invalidCast ((← Host.heap).debug v) target)
  fail (.invalidCast source target)

/-! ## Operands -/

/-- Pops an index. -/
def popIndex : Exec Int := do
  let v ← pop
  Host.expect "integer" v v.index?

/-- Pops an array. -/
def popArray : Exec ArrayId := do
  match ← pop with
  | .array a => pure a
  | .null => fail .nullReference
  | v => Host.unexpected "array" v

/-- Pops an address. -/
def popAddress : Exec Location := do
  match ← pop with
  | .address p => pure p
  | .null => fail .nullReference
  | v => Host.unexpected "address" v

/-- Pops a value for a location of some scalar kind. -/
def popFit (kind : Option ScalarKind) : Exec Value := return Value.fit kind (← pop)

/-- Pops two operands and pushes the result of an operation on them. -/
def onTwo (op : Value → Value → Host Value) : Exec Unit := do
  let b ← pop
  let a ← pop
  push (← op a b)

/-! ## Boxes -/

/-- The box to open for a value: the value itself, or a new box around what is no box. -/
def boxFor (target : Ty) (v : Value) : Exec BoxId := do
  let h ← Host.heap
  match v with
  | .null => fail .nullReference
  | .boxed b =>
    if (h.boxCell b).type.unboxesAs target then pure b
    else refuseCast (h.typeOf? v) v target
  | v =>
    -- a bare value in a slot of a reference type gets a box of its own
    match h.typeOf? v with
    | some found =>
      if found.unboxesAs target then Host.allocate (·.allocBox target v)
      else refuseCast (some found) v target
    | none => refuseCast none v target

/-! ## Fields -/

/-- The slot of an instance field. -/
def slotNumber (f : Field) : Exec Nat :=
  match f.storage with
  | .slot i => pure i
  | .static _ => fail (.host ("field `" ++ f.name ++ "` of `" ++ f.owner.path ++ "` is static"))

/-- Stops because a field is no static field. -/
def refuseInstance {α : Type} (f : Field) : Exec α :=
  fail (.host ("field `" ++ f.name ++ "` of `" ++ f.owner.path ++ "` is not static"))

/-- A field of an object or a struct, which may be given by its address or in a box. -/
def fieldOf (receiver : Value) (i : Nat) : Exec Value := do
  let h ← Host.heap
  let target ← match ← readThrough receiver with
    | .boxed b => pure (h.getBox b)
    | v => pure v
  match target with
  | .object o => Host.ofExcept (h.getField o i)
  | .struct _ fields =>
    match fields[i]? with
    | some v => pure v
    | none => fail (.outside i fields.length)
  | .null => fail .nullReference
  | v => Host.unexpected "object or struct" v

/-- A struct with another field, or the object itself once its field is changed. -/
def withField (target : Value) (i : Nat) (v : Value) : Exec Value := do
  match target with
  | .struct t fields =>
    if i < fields.length then pure (.struct t (fields.set i v))
    else fail (.outside i fields.length)
  | .object o =>
    Host.setField o i v
    pure target
  | .null => fail .nullReference
  | other => Host.unexpected "object or struct" other

/-- Stores into a field of an object, or of a struct given by its address or in a box. -/
def setFieldOf (receiver : Value) (i : Nat) (v : Value) : Exec Unit := do
  match receiver with
  | .object o => Host.setField o i v
  | .address p => store p (← withField (← load p) i v)
  | .boxed b =>
    let changed ← withField ((← Host.heap).getBox b) i v
    Host.modifyHeap (·.setBox b changed)
  | .null => fail .nullReference
  | other => Host.unexpected "object or address" other

/-! ## Calls -/

/-- The arguments as a method sees them: a receiver given by its address is read, and the address is
kept for writing it back. A virtual call needs a receiver that is not null. -/
def openReceiver (m : Method) (args : List Value) : Exec (List Value × Option Location) := do
  match m.isStatic, args with
  | false, .address p :: rest =>
    let this ← load p
    if this.isNull && m.isVirtual then fail .nullReference else pure (this :: rest, some p)
  | false, this :: rest =>
    if this.isNull && m.isVirtual then fail .nullReference else pure (this :: rest, none)
  | _, args => pure (args, none)

/-- Calls a method on the topmost operands. A receiver given by its address is written back as the body
left it; a result fits the return type. -/
def call (m : Method) : Exec Unit := do
  let (args, origin) ← openReceiver m (← popMany m.arity)
  let (result, left) ← (m.call args : Host _)
  match origin, left with
  | some p, this :: _ => store p this
  | _, _ => pure ()
  match m.ret with
  | some t => push (Value.fit t.storedAs? result)
  | none => pure ()

end Exec

open Exec

/-! ## Operations -/

/-- Does an **operation**. -/
def Op.execute : Op → Exec Unit
  | .push v => Exec.push v
  | .loadArg i => do Exec.push (← getArg i)
  | .storeArg i kind => do setArg i (← popFit kind)
  | .addressArg i => Exec.push (.address (.argument i))
  | .loadLocal i => do Exec.push (← getLocal i)
  | .storeLocal i kind => do setLocal i (← popFit kind)
  | .addressLocal i => Exec.push (.address (.variable i))
  | .add => onTwo (Host.arithmetic Scalar.add)
  | .sub => onTwo (Host.arithmetic Scalar.sub)
  | .and => onTwo (Host.bitwise (· &&& ·))
  | .or => onTwo (Host.bitwise (· ||| ·))
  | .not => do Exec.push (← Host.complement (← Exec.pop))
  | .identical => onTwo fun a b => return .ofBool ((← Host.heap).identical a b)
  | .dup => do Exec.push (← top)
  | .pop => do let _ ← Exec.pop
  | .convert kind => do
    let v ← Exec.pop
    Exec.push (← Host.expect "primitive value" v (v.convert? kind))
  | .box t => do
    let v ← readThrough (← Exec.pop)
    Exec.push (.boxed (← Host.allocate (·.allocBox t (Value.fit t.storedAs? v))))
  | .openBox t => do Exec.push (.address (.boxed (← boxFor t (← Exec.pop))))
  | .loadThrough => do Exec.push (← readThrough (← Exec.pop))
  | .storeThrough kind => do
    let v ← popFit kind
    store (← popAddress) v
  | .zeroThrough t => do store (← popAddress) (Value.zeroOf t)
  | .checkCast t => do
    let v ← Exec.pop
    match (← Host.heap).typeOf? v with
    | some found =>
      if t.accepts found then Exec.push v else refuseCast (some found) v t
    | none => Exec.push v
  | .instantiate c => do
    let params ← popMany c.params.length
    Exec.push (← c.make params)
  | .call m => Exec.call m
  | .makeArray element => do
    let n ← popIndex
    if n < 0 then fail (.indexOutOfRange n 0)
    else Exec.push (.array (← Host.allocate (·.allocZeros element n.toNat)))
  | .itemCount => do
    let n := (← Host.heap).itemCount (← popArray)
    if n < 1 <<< 31 then Exec.push (.ofInt32 n) else fail (.indexOutOfRange n n)
  | .loadItem => do
    let i ← popIndex
    let a ← popArray
    Exec.push (← Host.ofExcept ((← Host.heap).getItem a i))
  | .addressItem => do
    let i ← popIndex
    let a ← popArray
    -- the index is checked when the address is taken, not when it is used
    let _ ← Host.ofExcept ((← Host.heap).getItem a i)
    Exec.push (.address (.element a i.toNat))
  | .storeItem kind => do
    let v ← popFit kind
    let i ← popIndex
    let a ← popArray
    Host.setItem a i v
  | .getField f => do
    let i ← slotNumber f
    Exec.push (← fieldOf (← Exec.pop) i)
  | .putField f => do
    let i ← slotNumber f
    let v ← popFit f.type.storedAs?
    setFieldOf (← Exec.pop) i v
  | .getStatic f => do
    match f.staticId? with
    | some id => Exec.push ((← Host.heap).getStatic id)
    | none => refuseInstance f
  | .putStatic f => do
    let v ← popFit f.type.storedAs?
    match f.staticId? with
    | some id => Host.modifyHeap (·.setStatic id v)
    | none => refuseInstance f
  | .throw => do
    match ← Exec.pop with
    | .null => fail .nullReference
    | v => fail (.thrown (← Host.display v))

/-! ## Jumps -/

/-- Where a **jump** goes; nowhere means on to the next instruction. -/
def Jump.follow : Jump Nat → Exec (Option Nat)
  | .always t => pure (some t)
  | .ifTrue t => do
    let v ← Exec.pop
    return if ← Host.expect "branch condition" v v.condition? then some t else none
  | .ifFalse t => do
    let v ← Exec.pop
    return if ← Host.expect "branch condition" v v.condition? then none else some t
  | .compare c t => do
    let b ← Exec.pop
    let a ← Exec.pop
    return if ← Host.holds c a b then some t else none
  | .switch ts => do
    let i ← popIndex
    -- `Int.toNat` would send a negative index to the first target
    return if i < 0 then none else ts[i.toNat]?

/-! ## Instructions -/

/-- How a run **goes on** after an instruction. -/
inductive Progress
  /-- With the next instruction. -/
  | next
  /-- With the instruction at a position. -/
  | goto (position : Nat)
  /-- Not at all: the procedure returns a value. -/
  | done (value : Value)

/-- The returned value: the top, made to fit the return type, or null where nothing is returned. -/
def Exec.result : Option Ty → Exec Value
  | some t => popFit t.storedAs?
  | none => pure .null

/-- Does an **instruction** of a procedure with the given return type. -/
def Instruction.execute (ret : Option Ty) : Instruction Nat → Exec Progress
  | .op o => do
    o.execute
    pure .next
  | .jump j => do
    match ← j.follow with
    | some p => pure (.goto p)
    | none => pure .next
  | .ret => return .done (← Exec.result ret)

end Stackwright
