import ReviewQueue.Domain.Codec
import ReviewQueue.Review.Form

/-! The JSON form of a verdict in preparation. Lists without items are written as null. -/

namespace ReviewQueue.Form

open Json

/-- A list of which there is nothing to write when it has no items. -/
def listOrNull (f : α → List Char) (items : List α) : List Char :=
  if items.isEmpty then nullText else arrayText (items.map f)

def json (f : Form) : List Char :=
  record
    [member "status" f.status.json,
     member "feedback" (stringText f.feedback),
     member "partsReviewStatus" (listOrNull Status.json f.partsStatus),
     member "partsFeedback" (listOrNull stringText f.partsFeedback)]

def fields : List (RecordField Form) :=
  [field "status" Form.status (fun f v => { f with status := v }) Status.fill,
   field "feedback" Form.feedback (fun f v => { f with feedback := v }) fillString,
   field "partsReviewStatus" (fun f => some f.partsStatus)
     (fun f v => { f with partsStatus := v.getD [] }) (fillList .none Status.fill),
   field "partsFeedback" (fun f => some f.partsFeedback)
     (fun f v => { f with partsFeedback := v.getD [] }) (fillList "" fillString)]

def fill : Filler Form := fillRecord fields

end ReviewQueue.Form
