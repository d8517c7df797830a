import Stackwright.Fault
import Stackwright.Text.Template

/-! # Filled templates

The text of a template once its items are replaced by the values they name. A malformed piece, or an
item without a value, is a fault: the first one from the left. -/

namespace Stackwright

namespace Template

/-- The **text of a template** over the displayed values. The first piece from the left that is
malformed, or whose index has no value, is the fault; a malformed piece quotes the whole text. -/
def fill (whole : String) (values : List String) : Template → Except Fault (List Char)
  | .done => .ok []
  | .literal c rest => (c :: ·) <$> fill whole values rest
  | .item i rest =>
    match values[i]? with
    | some v => (v.toList ++ ·) <$> fill whole values rest
    | none => .error (.outside i values.length)
  | .malformed => .error (.host ("invalid format string `" ++ whole ++ "`"))

/-- The text of a format string over displayed values. -/
def format (format : String) (values : List String) : Except Fault String :=
  String.ofList <$> (scan format.toList).fill format values

end Template

end Stackwright
