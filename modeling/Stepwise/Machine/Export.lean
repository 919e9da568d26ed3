/-
Steps as documents, for a viewer in another program. Only the parts of a
change that are not empty are exported, and addresses become names.
-/
import Stepwise.Machine.Step
import Stepwise.Document

set_option autoImplicit false

namespace Stepwise

/-- A cell's new contents as a document. -/
def CellPatch.document (p : CellPatch) : Document :=
  .object [("value", p.value.document), ("name", .text p.name), ("type", .text p.type.text)]

/-- A frame's variable as a document. -/
def FrameVariable.document (v : FrameVariable) : Document :=
  .object
    [("name", .text v.name), ("value", v.value.document), ("address", .number v.address),
      ("type", .text v.type.text)]

/-- A frame's change as a document. -/
def FramePatch.document (p : FramePatch) : Document :=
  match p.action with
  | .remove => .object [("remove", .bool true)]
  | action => .object [(action.text, .list (p.vars.map FrameVariable.document))]

/-- A heap block's change as a document. -/
def BlockPatch.document (p : BlockPatch) : Document :=
  .object [("address", .number p.address), ("size", .number p.size), ("freed", .bool p.freed)]

/-- A part of a document, left out if it is empty. -/
def exportedPart {α : Type} (name : String) (entries : List α) (encode : α → String × Document) :
    List (String × Document) :=
  if entries.isEmpty then [] else [(name, .object (entries.map encode))]

/-- A change of the machine as a document. -/
def Delta.document (d : Delta) : Document :=
  .object
    (exportedPart "memory" d.memory (fun (a, p) => (Document.numberText a, p.document))
      ++ exportedPart "stack" d.stack (fun (name, p) => (name, p.document))
      ++ exportedPart "heap" d.heap (fun (a, p) => (Document.numberText a, p.document))
      ++ (if d.output.isEmpty then [] else [("output", .text d.output)]))

/-- A step as a document. -/
def Step.document (s : Step) : Document :=
  .object
    [("kind", .text s.kind.text), ("line", .int s.line), ("description", .text s.description),
      ("delta", s.delta.document)]

end Stepwise
