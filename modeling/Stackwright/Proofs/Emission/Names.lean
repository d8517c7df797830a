import Stackwright.Proofs.Emission.Calls

/-! # What an operation names

The locals, labels and loops that a client hands in with an operation, and the operation with others in
their place. The labels are `Operation.handed`.

* **`Operation.locals o`**, **`Operation.loops o`** — the locals and the loops that an operation names.
* **`Operation.rename ρ o`** — the operation with what `ρ` puts in their place. -/

namespace Stackwright

/-- What is **put in the place** of locals, labels and loops. -/
structure Renaming where
  /-- The local for a local. -/
  locals : Local → Local
  /-- The label for a label. -/
  labels : Label → Label
  /-- The loop for a loop. -/
  loops : LoopHandle → LoopHandle

/-- The renaming that changes nothing. -/
def Renaming.id : Renaming := ⟨fun l => l, fun l => l, fun h => h⟩

namespace Operand

/-- The local that an operand is, if it is one. -/
def locals : Operand → List Local
  | .variable l => [l]
  | .constant _ | .argument _ => []

/-- The operand with another local. -/
def rename (ρ : Renaming) : Operand → Operand
  | .variable l => .variable (ρ.locals l)
  | o => o

@[simp] theorem rename_id (o : Operand) : o.rename .id = o := by
  cases o <;> rfl

@[simp] theorem map_rename_id (os : List Operand) : os.map (rename .id) = os := by
  simp [funext rename_id]

@[simp] theorem option_map_rename_id (o : Option Operand) : o.map (rename .id) = o := by
  cases o <;> simp

end Operand

namespace Operation

/-- The locals that an operation names. -/
def locals : Operation → List Local
  | .newLocalWith _ _ o | .load o | .store o | .loadByAddress o | .increment o | .decrement o
  | .makeArray _ o | .openIfNotZero o => o.locals
  | .assign l o => l :: o.locals
  | .loadLocal l | .storeLocal l | .loadLocalAddress l | .openIfNotEmpty l | .openElseIfEmpty l => [l]
  | .instantiate _ os | .formatText _ os => os.flatMap Operand.locals
  | .callWith r _ os => r.toList.flatMap Operand.locals ++ os.flatMap Operand.locals
  | .loadItemOf a i => a.locals ++ i.locals
  | .storeItemOf a i v => a.locals ++ i.locals ++ v.locals
  | .openIfCompared a _ b | .openElseIf a _ b => a.locals ++ b.locals
  | .openFor l a b => l.toList ++ a.locals ++ b.locals
  | .openEach l _ e _ => [l, e]
  | _ => []

/-- The loops that an operation names. -/
def loops : Operation → List LoopHandle
  | .leave h | .leaveIfTrue h | .leaveIfFalse h => [h]
  | _ => []

/-- The operation **with other names**. -/
def rename (ρ : Renaming) : Operation → Operation
  | .newLocalWith t name o => .newLocalWith t name (o.rename ρ)
  | .assign l o => .assign (ρ.locals l) (o.rename ρ)
  | .load o => .load (o.rename ρ)
  | .store o => .store (o.rename ρ)
  | .loadByAddress o => .loadByAddress (o.rename ρ)
  | .increment o => .increment (o.rename ρ)
  | .decrement o => .decrement (o.rename ρ)
  | .loadLocal l => .loadLocal (ρ.locals l)
  | .storeLocal l => .storeLocal (ρ.locals l)
  | .loadLocalAddress l => .loadLocalAddress (ρ.locals l)
  | .markHere l => .markHere (ρ.labels l)
  | .jumpTo l => .jumpTo (ρ.labels l)
  | .jumpIfTrue l => .jumpIfTrue (ρ.labels l)
  | .jumpIfFalse l => .jumpIfFalse (ρ.labels l)
  | .jumpIfLess l => .jumpIfLess (ρ.labels l)
  | .jumpIfGreater l => .jumpIfGreater (ρ.labels l)
  | .jumpIfLessOrEqual l => .jumpIfLessOrEqual (ρ.labels l)
  | .instantiate c os => .instantiate c (os.map (Operand.rename ρ))
  | .callWith r m os => .callWith (r.map (Operand.rename ρ)) m (os.map (Operand.rename ρ))
  | .makeArray t o => .makeArray t (o.rename ρ)
  | .loadItemOf a i => .loadItemOf (a.rename ρ) (i.rename ρ)
  | .storeItemOf a i v => .storeItemOf (a.rename ρ) (i.rename ρ) (v.rename ρ)
  | .formatText format os => .formatText format (os.map (Operand.rename ρ))
  | .openIfCompared a c b => .openIfCompared (a.rename ρ) c (b.rename ρ)
  | .openElseIf a c b => .openElseIf (a.rename ρ) c (b.rename ρ)
  | .openIfNotZero o => .openIfNotZero (o.rename ρ)
  | .openIfNotEmpty l => .openIfNotEmpty (ρ.locals l)
  | .openElseIfEmpty l => .openElseIfEmpty (ρ.locals l)
  | .openFor l a b => .openFor (l.map ρ.locals) (a.rename ρ) (b.rename ρ)
  | .openEach l t e m => .openEach (ρ.locals l) t (ρ.locals e) m
  | .leave h => .leave (ρ.loops h)
  | .leaveIfTrue h => .leaveIfTrue (ρ.loops h)
  | .leaveIfFalse h => .leaveIfFalse (ρ.loops h)
  | .openCase l name => .openCase (ρ.labels l) name
  | o => o

@[simp] theorem rename_id (o : Operation) : o.rename .id = o := by
  cases o <;> simp [rename] <;> simp [Renaming.id]

/-- The labels of a renamed operation are those in the place of its labels. -/
theorem handed_rename (ρ : Renaming) (o : Operation) : (o.rename ρ).handed = o.handed.map ρ.labels := by
  cases o <;> rfl

/-- Whether an operation is **straight-line**: it touches no label and no construct. -/
def isStraight : Operation → Bool
  | .newLabel | .markHere _ | .jumpTo _ | .jumpIfTrue _ | .jumpIfFalse _ | .jumpIfLess _
  | .jumpIfGreater _ | .jumpIfLessOrEqual _ | .toFullText _ | .openIfTrue | .openIfFalse | .openIf _
  | .openIfCompared .. | .openElse | .openElseIf .. | .closeIf | .openIfNotZero _ | .openIfNotEmpty _
  | .openElseIfEmpty _ | .openFor .. | .closeFor | .openEach .. | .closeEach _ | .leave _
  | .leaveIfTrue _ | .leaveIfFalse _ | .openSwitch _ | .openCase .. | .closeCase | .openDefault
  | .closeSwitch | .openWhile | .openWhileBody _ | .closeWhile => false
  | _ => true

end Operation

end Stackwright
