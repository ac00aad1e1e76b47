import OffchainNames.Dispatch

/-!
# Gateways

A gateway dispatches a call and takes the response through stages. A stage may work on the world, and
hands on a response or ends the call with an error; stages after that one do not run.
-/

namespace OffchainNames

/-- Work on the response to a call. -/
structure Stage where
  name : String
  process : Call → Response → Course (Ending (Except Error Response))

/-- A table of functions and the stages of their responses. -/
structure Gateway where
  table : Table
  /-- The stages, in the order in which they run. -/
  stages : List Stage := []

/-- Takes a response through stages. -/
def Stage.processAll : List Stage → Call → Response → Course (Ending Response)
  | [], _, response => .done (.answered response)
  | stage :: rest, call, response =>
    (stage.process call response).bind fun
      | .answered (.ok response) => processAll rest call response
      | .answered (.error e) => .done (.answered (.ofError e))
      | .crashed => .done .crashed
      | .never => .done .never

/-- Handles a call. -/
def Gateway.handle (g : Gateway) (call : Call) : Course (Ending Response) :=
  (g.table.dispatch (.ofCall call)).bind fun
    | .answered response => Stage.processAll g.stages call response
    | .crashed => .done .crashed
    | .never => .done .never

end OffchainNames
