import OmpBundler.Library.Json

/-!
The event stream that the HTTP adapter answers with.
-/

namespace OmpBundler.HttpAdapter

open Library

variable {ν : Type} (F : NumberFormat ν)

/-- The names of the events that the adapter writes. -/
inductive SseName where
  | accepted | delta | progress | completed | cancelled | error
  deriving DecidableEq, Repr

namespace SseName

def text : SseName → String
  | accepted => "accepted"
  | delta => "delta"
  | progress => "progress"
  | completed => "completed"
  | cancelled => "cancelled"
  | error => "error"

/-- The events that end a turn. -/
def isTerminal (name : SseName) : Bool := decide (name ∈ [completed, error, cancelled])

end SseName

/-- One event of the stream; no data stands for an undefined value. -/
def formatSse (event : String) (data : Option (Json ν)) (id : Option ν) : List Char :=
  let idLine :=
    match id with
    | none => []
    | some id => "id: ".toList ++ F.text id ++ ['\n']
  let text := (data.map fun v => v.stringify F).getD "null".toList
  idLine ++ "event: ".toList ++ event.toList ++ "\ndata: ".toList ++ text ++ "\n\n".toList

end OmpBundler.HttpAdapter
