import SmallLisp.Datum.Basic
import SmallLisp.Text.Quoted

/-!
# Printing data

A list is printed as its elements in parentheses, one space between them. Procedures
print as a marker that the reader would take for something else: the name of a
primitive, the parameters of a closure.
-/

namespace SmallLisp

/-- The names in order, one space between them. -/
def joinNames (names : List String) : String := " ".intercalate names

namespace Datum

mutual

/-- **The printed form of a datum.** -/
def render : Datum → String
  | .atom a _ => a.render
  | .list es _ => "(" ++ renderAll es ++ ")"
  | .primitive p _ => "#<primitive:" ++ p.name ++ ">"
  | .closure _ params _ _ _ => "#<lambda:(" ++ joinNames params ++ ")>"

/-- The printed forms in order, one space between them. -/
def renderAll : List Datum → String
  | [] => ""
  | [d] => render d
  | d :: e :: ds => render d ++ " " ++ renderAll (e :: ds)

end

/-- The span of a datum does not show in its printed form. -/
@[simp]
theorem render_withSpan (s : Span) (d : Datum) : (d.withSpan s).render = d.render := by
  cases d <;> rfl

end Datum

/-- How a procedure is shown for inspection: what it is, with the name of a
primitive, or with the parameters of a closure in double quotes. -/
def Procedure.describe : Procedure → String
  | .primitive p => "Primitive(" ++ p.name ++ ")"
  | .closure c => "Lambda([" ++ ", ".intercalate (c.params.map quoteName) ++ "])"

end SmallLisp
