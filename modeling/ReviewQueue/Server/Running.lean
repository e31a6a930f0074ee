import ReviewQueue.Clock
import ReviewQueue.Remote.Client
import ReviewQueue.Server.Handler

/-! A service that runs at the far side of a wire. -/

namespace ReviewQueue

/-- A service and its clock. -/
structure RunningService where
  service : Service
  clock : Clock

namespace RunningService

/-- Answers a request, and goes on. -/
def answer (r : RunningService) (request : Http.Request) : RunningService × Http.Response :=
  let (service, response) := Server.answer r.service r.clock.now request
  (⟨service, r.clock.tick⟩, response)

end RunningService

instance : Http.Peer RunningService where
  answer r sent :=
    let (r, response) := r.answer sent.request
    (r, .answered response)
  now r := r.clock.now

end ReviewQueue
