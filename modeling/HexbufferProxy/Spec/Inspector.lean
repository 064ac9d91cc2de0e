import HexbufferProxy.Model.Inspector

/-!
# What the inspector should record

The record of an exchange is about its own request and its own response, whatever else goes on. The
history is the end of what has been recorded.
-/

namespace HexbufferProxy

open Rust

namespace Exchange

/-- The request of an exchange, as it should be remembered. -/
def metadata (e : Exchange) : RequestMetadata :=
  if isDashboard e.ctx e.req then .missing e.clocks
  else ⟨e.clocks.begun, headerEntries (intercepted e.req).headers, bodyText (intercepted e.req).body⟩

/-- The handler answers the request itself. -/
def isMocked (e : Exchange) : Bool := !isDashboard e.ctx e.req && isMockPath (intercepted e.req)

/-- **The record of an exchange**, from its own request and response. -/
def record (http : HttpCrate) (e : Exchange) : Option TrafficRecord :=
  if isDashboardHost e.ctx then none
  else if e.isMocked then some (mockRecord e.clocks e.ctx (intercepted e.req))
  else
    e.reply.bind fun res => res.body.intoBytes.toOption.map fun bytes =>
      responseRecord http e.clocks e.ctx e.metadata res.status
        (res.headers.insert processedName processedValue) bytes

end Exchange

namespace Inspect

/-- The number of an exchange. -/
def exchangeId : Inspect → Option UInt64
  | request e | response e | record e _ _ | exchanged e => some e.ctx.id
  | _ => none

/-- What is recorded for something that has come to its end. -/
def made (http : HttpCrate) : Inspect → Option TrafficRecord
  | exchanged e => e.record http
  | noted secs ctx msg direction frameId => (frameRecord secs ctx msg direction frameId).toOption
  | _ => none

/-- What has to be remembered. -/
def memory : Inspect → Option RequestMetadata
  | response e => if isDashboard e.ctx e.req then none else some e.metadata
  | _ => none

end Inspect

def Inspected.exchangeId : Inspected → Option UInt64
  | exchange e => some e.ctx.id
  | _ => none

/-- The numbers of all exchanges that begin. -/
def exchangeIds (acts : List (Act Inspected)) : List UInt64 :=
  acts.filterMap fun
    | .start a => a.exchangeId
    | .step _ => none

end HexbufferProxy
