import OmpBundler.Library.Transition
import OmpBundler.Pumble.Renderer

/-!
The adapter's endpoint for events of the core, and the adapter as a system.

The request has passed the signature check and the validation, which change
nothing: what is modelled starts from the event. The core delivers an event
until it is answered with a 2xx, so the same event may arrive again after any
other answer, after no answer because the adapter has died, and after a
restart. The deliveries of an event do not overlap.

An action of the system is one delivery with a script, which fixes what every
call of the environment answers and where the process dies, or a restart.
-/

namespace OmpBundler.Pumble

open Library Library.Proc

/-- Release the stored target of the correlation, in a store of its own. -/
def forgetCorrelation (_event : OutboundEvent) : Rendering Unit :=
  attempt >>= fun _ => pure ()

def sendText (event : OutboundEvent) (status : ℕ) : Rendering Unit :=
  modify (·.answer event status)

/-- The last part of a request that is going to be acknowledged. -/
def acknowledge (event : OutboundEvent) : Rendering Unit := do
  (if event.isTerminal then forgetCorrelation event else pure ())
  sendText event 200

/-- Whether the event could be rendered. -/
def tryRender (options : PumbleRendererOptions) (event : OutboundEvent) : Rendering Bool :=
  tryCatch (render options event >>= fun _ => pure true) fun _ => pure false

def handleCoreEvents (options : PumbleRendererOptions) (event : OutboundEvent) :
    Rendering Unit := do
  let completed ← onStore (DeliveryStore.hasCompleted event.eventId)
  if completed then
    acknowledge event
  else
    let rendered ← tryRender options event
    if rendered then
      onStore (DeliveryStore.markCompleted event.eventId)
      acknowledge event
    else
      sendText event 500

/-- The listener of the server: an error that the handler lets through is
answered with status 500. -/
def serve (options : PumbleRendererOptions) (event : OutboundEvent) : Rendering Unit :=
  tryCatch (handleCoreEvents options event) fun _ => sendText event 500

/-- What the server constructs its renderer with. -/
def serverOptions : PumbleRendererOptions where
  attachmentSender := true
  checkpointStore := true
  settings := true

/-! ### The system -/

namespace Adapter

/-- An adapter that has not been started before. -/
def fresh : Adapter where
  deliveries := .unread none
  correlations := .empty
  checkpoints := []
  effects := []
  answers := []

/-- The process has gone and a new one has started. -/
def restart (adapter : Adapter) : Adapter :=
  { adapter with
    deliveries := adapter.deliveries.restart
    correlations := .empty
    checkpoints := [] }

end Adapter

inductive Action where
  | deliver (eventId : String) (script : List Reply)
  | restart

/-- One request runs to its end, or until the process dies. -/
def Adapter.deliver (options : PumbleRendererOptions) (adapter : Adapter)
    (event : OutboundEvent) (script : List Reply) : Adapter :=
  match serve options event adapter script with
  | (.died, after, _) => after.restart
  | (_, after, _) => after

def adapterMachine (options : PumbleRendererOptions) (feed : Feed) :
    Transition.Machine Adapter Action where
  init adapter := adapter = .fresh
  step adapter
    | .deliver eventId script => some (adapter.deliver options (feed.event eventId) script)
    | .restart => some adapter.restart

end OmpBundler.Pumble
