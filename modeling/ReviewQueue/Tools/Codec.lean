import ReviewQueue.Tools

/-! The JSON form of what the tools say. -/

namespace ReviewQueue.Tools

open Json

/-- A parameter as the schema of a tool has it. -/
def Parameter.json (p : Parameter) : List Char :=
  record [member "type" (stringText p.kind), member "description" (stringText p.description)]

/-- A tool as it is announced: its parameters by name, and which of them are required. -/
def Description.json (d : Description) : List Char :=
  record
    [member "name" (stringText d.name),
     member "description" (stringText d.description),
     member "properties" (objectText (d.parameters.map fun p => (p.name, p.json))),
     member "required"
       (arrayText ((d.parameters.filter Parameter.required).map fun p => stringText p.name))]

def Reply.json : Reply → List Char
  | .result r => record [member "isError" (boolText r.isError), member "text" (stringText r.text)]
  | .greeting server version =>
    record [member "server" (stringText server), member "version" (stringText version)]
  | .tools ds => record [member "tools" (arrayText (ds.map Description.json))]
  | .empty => record []
  | .refused code => record [member "rpcError" (intText code)]

end ReviewQueue.Tools
