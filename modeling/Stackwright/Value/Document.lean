import Stackwright.Value.Text

/-! # Exported documents

A value is **exported** as a tree (`Document`): references are replaced by what they refer to, objects
and structs become lists of declared names with their values, and types become their paths. Addresses
cannot be exported. A document is written as compact JSON text. -/

namespace Stackwright

/-- The **tree** a value is exported as. -/
inductive Document where
  /-- No value. -/
  | null
  /-- A truth value. -/
  | bool (value : Bool)
  /-- An integer. -/
  | int (value : Int)
  /-- A float, by its bits. -/
  | float (kind : FloatKind) (bits : BitVec kind.bits)
  /-- A string. -/
  | text (value : String)
  /-- A list of documents. -/
  | list (items : List Document)
  /-- Named documents in order; a name may occur more than once. -/
  | record (entries : List (String × Document))

/-- Why a value cannot be exported. -/
inductive ExportError
  /-- An address was met; its text in diagnostics. -/
  | address (location : String)
  /-- A reference leads back to itself. -/
  | cyclic

/-- The text of an export error. -/
def ExportError.message : ExportError → String
  | .address place => "cannot serialize the address " ++ place
  | .cyclic => "cannot serialize a cyclic value"

namespace Document

/-- The document of a scalar. A unit that is no character by itself is exported as a number. -/
def ofScalar : Scalar → Document
  | .bool b => .bool b
  | .word .char v =>
    if 0xD800 ≤ v.toNat ∧ v.toNat < 0xE000 then .int v.toNat
    else .text (String.singleton (Char.ofNat v.toNat))
  | .word k v => .int (Scalar.wordValue k v)
  | .float k v => .float k v

mutual

/-- The document of a value, given how references are followed. -/
def ofValueWith (h : Heap) (follow : Value → Except ExportError Document) :
    Value → Except ExportError Document
  | .null => .ok .null
  | .scalar s => .ok (ofScalar s)
  | .text s => .ok (.text s)
  | .handle t => .ok (.text t.path)
  | .struct t fields => .record <$> entriesWith h follow t.fields fields
  | .address p => .error (.address (h.placeDebug p))
  | .array a => follow (.array a)
  | .object o => follow (.object o)
  | .boxed b => follow (.boxed b)

/-- The entries of declared fields paired with values, as far as both go. -/
def entriesWith (h : Heap) (follow : Value → Except ExportError Document) :
    List (String × Ty) → List Value → Except ExportError (List (String × Document))
  | (name, _) :: fields, v :: rest => do
    let d ← ofValueWith h follow v
    let ds ← entriesWith h follow fields rest
    pure ((name, d) :: ds)
  | _, _ => .ok []

end

/-- The document of a reference, which follows at most the given number of references in turn. -/
def ofReference (h : Heap) : Nat → Value → Except ExportError Document
  | 0, _ => .error .cyclic
  | n + 1, .array a =>
    .list <$> (h.arrayCell a).items.toList.mapM (ofValueWith h (ofReference h n))
  | n + 1, .object o =>
    let cell := h.objectCell o
    .record <$> entriesWith h (ofReference h n) cell.type.fields cell.fields.toList
  | n + 1, .boxed b => ofValueWith h (ofReference h n) (h.getBox b)
  | _ + 1, _ => .error .cyclic

/-- The **document of a value**. A path that follows more references than the heap has cells goes in
a circle. -/
def ofValue (h : Heap) (v : Value) : Except ExportError Document :=
  ofValueWith h (ofReference h (h.arrays.size + h.objects.size + h.boxes.size + 1)) v

/-! ## JSON text -/

/-- One hexadecimal digit. -/
def hexDigit (n : Nat) : Char := (Nat.toDigits 16 n).headD '0'

/-- The characters that stand for one character in a JSON string. -/
def escapeChar : Char → List Char
  | '\x22' => ['\\', '\x22']
  | '\\' => ['\\', '\\']
  | '\x08' => ['\\', 'b']
  | '\x0c' => ['\\', 'f']
  | '\n' => ['\\', 'n']
  | '\r' => ['\\', 'r']
  | '\t' => ['\\', 't']
  | c =>
    if c.toNat < 0x20 then
      ['\\', 'u', '0', '0', hexDigit (c.toNat / 16), hexDigit (c.toNat % 16)]
    else [c]

/-- A JSON string. -/
def quote (s : String) : String :=
  String.ofList (['\x22'] ++ s.toList.flatMap escapeChar ++ ['\x22'])

mutual

/-- A document as **compact JSON**, given the text of floats. -/
def render (floatText : (k : FloatKind) → BitVec k.bits → String) : Document → String
  | .null => "null"
  | .bool b => if b then "true" else "false"
  | .int n => toString n
  | .float k v => floatText k v
  | .text s => quote s
  | .list items => "[" ++ ",".intercalate (renderAll floatText items) ++ "]"
  | .record entries => "\x7b" ++ ",".intercalate (renderEntries floatText entries) ++ "\x7d"

/-- Several documents as JSON. -/
def renderAll (floatText : (k : FloatKind) → BitVec k.bits → String) :
    List Document → List String
  | [] => []
  | d :: rest => render floatText d :: renderAll floatText rest

/-- Named documents as JSON. -/
def renderEntries (floatText : (k : FloatKind) → BitVec k.bits → String) :
    List (String × Document) → List String
  | [] => []
  | (name, d) :: rest =>
    (quote name ++ ":" ++ render floatText d) :: renderEntries floatText rest

end

end Document

end Stackwright
