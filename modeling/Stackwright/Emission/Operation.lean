import Stackwright.Emission.Text

/-! # Emission calls as data

The whole **language of emission calls**, each with its operands, and the answer it gives when it is
accepted. `Operation.perform` says what a call emits. -/

namespace Stackwright

/-- An **emission call** with its operands. -/
inductive Operation
  /-- Answers an argument slot. -/
  | arg (index : Nat)
  /-- Declares a local. -/
  | newLocal (type : Ty) (name : String)
  /-- Declares a local with an initial value. -/
  | newLocalWith (type : Ty) (name : String) (init : Operand)
  /-- Stores an operand into a local, converted. -/
  | assign (slot : Local) (value : Operand)
  /-- Loads an operand. -/
  | load (operand : Operand)
  /-- Stores into a slot. -/
  | store (operand : Operand)
  /-- Loads the address of a slot of a value type. -/
  | loadByAddress (operand : Operand)
  /-- Adds one to a slot. -/
  | increment (operand : Operand)
  /-- Subtracts one from a slot. -/
  | decrement (operand : Operand)
  /-- Loads a constant. -/
  | loadConstant (value : Constant)
  /-- Loads a string. -/
  | loadText (text : String)
  /-- Loads null. -/
  | loadNull
  /-- Loads an argument. -/
  | loadArg (slot : Argument)
  /-- Stores into an argument. -/
  | storeArg (slot : Argument)
  /-- Loads the address of an argument. -/
  | loadArgAddress (slot : Argument)
  /-- Loads a local. -/
  | loadLocal (slot : Local)
  /-- Stores into a local. -/
  | storeLocal (slot : Local)
  /-- Loads the address of a local. -/
  | loadLocalAddress (slot : Local)
  /-- Loads the token of a type. -/
  | loadToken (type : Ty)
  /-- Loads the zero of a type. -/
  | loadZero (type : Ty)
  /-- Adds. -/
  | add
  /-- Subtracts. -/
  | subtract
  /-- Conjoins bits. -/
  | and
  /-- Disjoins bits. -/
  | or
  /-- Negates bits. -/
  | not
  /-- Tests identity. -/
  | identical
  /-- Answers a new label. -/
  | newLabel
  /-- Marks a label here. -/
  | markHere (label : Label)
  /-- Jumps. -/
  | jumpTo (label : Label)
  /-- Jumps if true. -/
  | jumpIfTrue (label : Label)
  /-- Jumps if false. -/
  | jumpIfFalse (label : Label)
  /-- Jumps if less. -/
  | jumpIfLess (label : Label)
  /-- Jumps if greater. -/
  | jumpIfGreater (label : Label)
  /-- Jumps if less or equal. -/
  | jumpIfLessOrEqual (label : Label)
  /-- Pushes the top again. -/
  | dup
  /-- Removes the top. -/
  | pop
  /-- Throws the top. -/
  | throw
  /-- Returns. -/
  | ret
  /-- Boxes the top. -/
  | makeBox (type : Ty)
  /-- Opens a box. -/
  | openBox (type : Ty)
  /-- Reads through an address. -/
  | loadThrough (type : Ty)
  /-- Writes through an address. -/
  | storeThrough (type : Ty)
  /-- Checks the type of a reference. -/
  | checkCast (type : Ty)
  /-- Writes a zero through an address. -/
  | zeroThrough (type : Ty)
  /-- Converts the top. -/
  | convertTop (source target : Ty)
  /-- Converts what the top is the address of. -/
  | convertPointee (source target : Ty)
  /-- Makes an instance. -/
  | instantiate (maker : Constructor) (params : List Operand)
  /-- Loads a member; answers its type. -/
  | getMember (member : Member)
  /-- Stores into a member. -/
  | putMember (member : Member)
  /-- Calls a method on the stack. -/
  | call (method : Method)
  /-- Calls a method on operands. -/
  | callWith (receiver : Option Operand) (method : Method) (params : List Operand)
  /-- Makes an array. -/
  | makeArray (element : Ty) (length : Operand)
  /-- Takes the length of an array. -/
  | loadLength
  /-- Loads an item. -/
  | loadItem (element : Ty)
  /-- Loads the address of an item. -/
  | loadItemAddress (element : Ty)
  /-- Stores an item. -/
  | storeItem (element : Ty)
  /-- Loads an item of an array operand. -/
  | loadItemOf (array index : Operand)
  /-- Stores an item of an array operand. -/
  | storeItemOf (array index value : Operand)
  /-- Turns the top into text. -/
  | toText (type : Ty)
  /-- Turns the top into its full text. -/
  | toFullText (type : Ty)
  /-- Puts two strings in a row. -/
  | joinTwo
  /-- Puts three strings in a row. -/
  | joinThree
  /-- Pushes a formatted text. -/
  | formatText (format : String) (operands : List Operand)
  /-- Opens a conditional on a condition. -/
  | openIfTrue
  /-- Opens a conditional on a negated condition. -/
  | openIfFalse
  /-- Opens a conditional on a comparison. -/
  | openIf (comparison : Comparison)
  /-- Opens a conditional on a comparison of operands. -/
  | openIfCompared (left : Operand) (comparison : Comparison) (right : Operand)
  /-- Opens the last alternative. -/
  | openElse
  /-- Opens a guarded alternative. -/
  | openElseIf (left : Operand) (comparison : Comparison) (right : Operand)
  /-- Ends a conditional. -/
  | closeIf
  /-- Opens a conditional on an operand that is not the zero of its type. -/
  | openIfNotZero (operand : Operand)
  /-- Opens a conditional on a string that is not empty. -/
  | openIfNotEmpty (slot : Local)
  /-- Opens an alternative for an empty string. -/
  | openElseIfEmpty (slot : Local)
  /-- Opens a counted loop; answers its handle. -/
  | openFor (index : Option Local) (start bound : Operand)
  /-- Ends a counted loop. -/
  | closeFor
  /-- Opens a loop over an enumerator; answers its handle. -/
  | openEach (slot : Local) (element : Ty) (enumerator : Local) (getCurrent : Method)
  /-- Ends a loop over an enumerator. -/
  | closeEach (moveNext : Method)
  /-- Leaves a loop. -/
  | leave (loop : LoopHandle)
  /-- Leaves a loop if true. -/
  | leaveIfTrue (loop : LoopHandle)
  /-- Leaves a loop if false. -/
  | leaveIfFalse (loop : LoopHandle)
  /-- Opens a switch; answers the labels of its cases. -/
  | openSwitch (cases : Nat)
  /-- Begins the section of a case. -/
  | openCase (label : Label) (name : String)
  /-- Ends the section of a case. -/
  | closeCase
  /-- Begins the default section. -/
  | openDefault
  /-- Ends a switch. -/
  | closeSwitch
  /-- Opens a while loop with its condition. -/
  | openWhile
  /-- Begins the body of a while loop. -/
  | openWhileBody (comparison : Comparison)
  /-- Ends a while loop. -/
  | closeWhile

/-- The **answer** to an accepted emission call. -/
inductive Answer
  | done
  | argument (slot : Argument)
  | variable (slot : Local)
  | label (label : Label)
  | labels (labels : List Label)
  | loop (loop : LoopHandle)
  | type (type : Ty)

namespace Operation

/-- **Performs** an emission call. -/
def perform : Operation → Emit Answer
  | .arg i => .argument <$> Emit.arg i
  | .newLocal t name => .variable <$> Emit.newLocal t name
  | .newLocalWith t name init => .variable <$> Emit.newLocalWith t name init
  | .assign l o => done (Emit.assign l o)
  | .load o => done (Emit.load o)
  | .store o => done (Emit.store o)
  | .loadByAddress o => done (Emit.loadByAddress o)
  | .increment o => done (Emit.increment o)
  | .decrement o => done (Emit.decrement o)
  | .loadConstant c => done (Emit.loadConstant c)
  | .loadText s => done (Emit.loadText s)
  | .loadNull => done Emit.loadNull
  | .loadArg a => done (Emit.loadArg a)
  | .storeArg a => done (Emit.storeArg a)
  | .loadArgAddress a => done (Emit.loadArgAddress a)
  | .loadLocal l => done (Emit.loadLocal l)
  | .storeLocal l => done (Emit.storeLocal l)
  | .loadLocalAddress l => done (Emit.loadLocalAddress l)
  | .loadToken t => done (Emit.loadToken t)
  | .loadZero t => done (Emit.loadZero t)
  | .add => done (Emit.traced "Add" .add)
  | .subtract => done (Emit.traced "Sub" .sub)
  | .and => done (Emit.traced "And" .and)
  | .or => done (Emit.traced "Or" .or)
  | .not => done (Emit.traced "Not" .not)
  | .identical => done (Emit.traced "Ceq" .identical)
  | .newLabel => .label <$> Emit.newLabel
  | .markHere l => done (Emit.markHere l)
  | .jumpTo l => done (Emit.jumpTo l)
  | .jumpIfTrue l => done (Emit.jumpIfTrue l)
  | .jumpIfFalse l => done (Emit.jumpIfFalse l)
  | .jumpIfLess l => done (Emit.jumpIfLess l)
  | .jumpIfGreater l => done (Emit.jumpIfGreater l)
  | .jumpIfLessOrEqual l => done (Emit.jumpIfLessOrEqual l)
  | .dup => done (Emit.traced "Dup" .dup)
  | .pop => done (Emit.traced "Pop" .pop)
  | .throw => done (Emit.traced "Throw" .throw)
  | .ret => done Emit.ret
  | .makeBox t => done (Emit.makeBox t)
  | .openBox t => done (Emit.openBox t)
  | .loadThrough t => done (Emit.loadThrough t)
  | .storeThrough t => done (Emit.storeThrough t)
  | .checkCast t => done (Emit.checkCast t)
  | .zeroThrough t => done (Emit.zeroThrough t)
  | .convertTop s t => done (Emit.convertTop s t)
  | .convertPointee s t => done (Emit.convertPointee s t)
  | .instantiate c params => done (Emit.instantiate c params)
  | .getMember m => .type <$> Emit.getMember m
  | .putMember m => done (Emit.putMember m)
  | .call m => done (Emit.call m)
  | .callWith receiver m params => done (Emit.callWith receiver m params)
  | .makeArray t n => done (Emit.makeArray t n)
  | .loadLength => done Emit.loadLength
  | .loadItem t => done (Emit.loadItem t)
  | .loadItemAddress t => done (Emit.loadItemAddress t)
  | .storeItem t => done (Emit.storeItem t)
  | .loadItemOf a i => done (Emit.loadItemOf a i)
  | .storeItemOf a i v => done (Emit.storeItemOf a i v)
  | .toText t => done (Emit.toText t)
  | .toFullText t => done (Emit.toFullText t)
  | .joinTwo => done Emit.joinTwo
  | .joinThree => done Emit.joinThree
  | .formatText format operands => done (Emit.formatText format operands)
  | .openIfTrue => done Emit.openIfTrue
  | .openIfFalse => done Emit.openIfFalse
  | .openIf c => done (Emit.openIf c)
  | .openIfCompared a c b => done (Emit.openIfCompared a c b)
  | .openElse => done Emit.openElse
  | .openElseIf a c b => done (Emit.openElseIf a c b)
  | .closeIf => done Emit.closeIf
  | .openIfNotZero o => done (Emit.openIfNotZero o)
  | .openIfNotEmpty l => done (Emit.openIfNotEmpty l)
  | .openElseIfEmpty l => done (Emit.openElseIfEmpty l)
  | .openFor index start bound => .loop <$> Emit.openFor index start bound
  | .closeFor => done Emit.closeFor
  | .openEach l element enumerator getCurrent =>
    .loop <$> Emit.openEach l element enumerator getCurrent
  | .closeEach moveNext => done (Emit.closeEach moveNext)
  | .leave h => done (Emit.leave h)
  | .leaveIfTrue h => done (Emit.leaveIfTrue h)
  | .leaveIfFalse h => done (Emit.leaveIfFalse h)
  | .openSwitch cases => .labels <$> Emit.openSwitch cases
  | .openCase l name => done (Emit.openCase l name)
  | .closeCase => done Emit.closeCase
  | .openDefault => done Emit.openDefault
  | .closeSwitch => done Emit.closeSwitch
  | .openWhile => done Emit.openWhile
  | .openWhileBody c => done (Emit.openWhileBody c)
  | .closeWhile => done Emit.closeWhile
where
  /-- A call that has nothing to answer. -/
  done (e : Emit Unit) : Emit Answer := do
    e
    pure .done

end Operation

end Stackwright
