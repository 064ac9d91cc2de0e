import HexbufferProxy.Model.Handler

/-!
# A handler that leaves hosts alone (`examples/proxy.rs`)

`PassthroughHandler` is how a user of the library keeps the proxy out of the connections to some
hosts.
-/

namespace HexbufferProxy

open Rust

variable {ω : Type}

/-- `host == p || host.ends_with(&format!(".{p}"))`. -/
def coversHost (p host : Str) : Bool := host = p || ('.' :: p).isSuffixOf host

/-- `PassthroughHandler`. -/
def PassthroughHandler (passthrough : List Str) : UserHandler ω where
  handleRequest ctx req w := ((.ok (.request req), ctx), w)
  handleResponse ctx res w := ((.ok res, ctx), w)
  shouldInterceptTls host w := (!passthrough.any fun p => coversHost p host, w)

end HexbufferProxy
