import HexbufferProxy.Rust.Text
import HexbufferProxy.Rust.Utf8
import HexbufferProxy.Rust.Source
import HexbufferProxy.Rust.Proc
import HexbufferProxy.Model.Http
import HexbufferProxy.Model.Message
import HexbufferProxy.Model.Read
import HexbufferProxy.Model.Handler
import HexbufferProxy.Model.Flow
import HexbufferProxy.Spec.Framing
import HexbufferProxy.Proof.Read
import HexbufferProxy.Spec.Head
import HexbufferProxy.Proof.Head
import HexbufferProxy.Proof.Response
import HexbufferProxy.Spec.Upstream
import HexbufferProxy.Spec.Forward
import HexbufferProxy.Spec.Status
import HexbufferProxy.Spec.Reply
import HexbufferProxy.Proof.Handlers
import HexbufferProxy.Proof.Flow
import HexbufferProxy.Proof.Guard
import HexbufferProxy.Model.Relay
import HexbufferProxy.Model.Tunnel
import HexbufferProxy.Spec.Relay
import HexbufferProxy.Proof.Relay
import HexbufferProxy.Proof.Tunnel
import HexbufferProxy.Spec.Connect
import HexbufferProxy.Proof.Connect
import HexbufferProxy.Spec.Upgrade
import HexbufferProxy.Proof.Upgrade
import HexbufferProxy.Proof.Fields
import HexbufferProxy.Proof.Forward
import HexbufferProxy.Spec.Endpoint
import HexbufferProxy.Proof.Endpoint
import HexbufferProxy.Spec.Host
import HexbufferProxy.Proof.Host
import HexbufferProxy.Spec.Wire
import HexbufferProxy.Proof.Parse
import HexbufferProxy.Proof.RoundTrip
import HexbufferProxy.Spec.Complete
import HexbufferProxy.Proof.Complete
import HexbufferProxy.Proof.Status
import HexbufferProxy.Spec.Reread
import HexbufferProxy.Proof.Reread
import HexbufferProxy.Spec.Deliver
import HexbufferProxy.Proof.Deliver
import HexbufferProxy.Proof.Reply
import HexbufferProxy.Spec.Accept
import HexbufferProxy.Proof.Accept
import HexbufferProxy.Spec.Reader
import HexbufferProxy.Proof.Reader
import HexbufferProxy.Spec.Stages
import HexbufferProxy.Proof.Stages
import HexbufferProxy.Proof.Buffer
import HexbufferProxy.Model.Server
import HexbufferProxy.Model.Begun
import HexbufferProxy.Spec.Toggle
import HexbufferProxy.Proof.Toggle
import HexbufferProxy.Spec.Chunks
import HexbufferProxy.Proof.Chunks
import HexbufferProxy.Proof.Truncate
import HexbufferProxy.Model.Builder
import HexbufferProxy.Spec.Order
import HexbufferProxy.Proof.Stack
import HexbufferProxy.Proof.Order
import HexbufferProxy.Model.Decoder
import HexbufferProxy.Spec.Codings
import HexbufferProxy.Proof.Decoder
import HexbufferProxy.Rust.Interleave
import HexbufferProxy.Model.Authority
import HexbufferProxy.Spec.Authority
import HexbufferProxy.Proof.Authority
import HexbufferProxy.Proof.Forge
import HexbufferProxy.Spec.Closing
import HexbufferProxy.Proof.Closing
import HexbufferProxy.Rust.Keeps
import HexbufferProxy.Spec.Session
import HexbufferProxy.Proof.Session
import HexbufferProxy.Spec.Validity
import HexbufferProxy.Proof.Validity
import HexbufferProxy.Spec.Boundary
import HexbufferProxy.Proof.Boundary
import HexbufferProxy.Spec.Scanners
import HexbufferProxy.Proof.Scanners
import HexbufferProxy.Spec.Carry
import HexbufferProxy.Proof.Carry
import HexbufferProxy.Spec.Targets
import HexbufferProxy.Proof.Targets
import HexbufferProxy.Spec.Handshake
import HexbufferProxy.Proof.Handshake
import HexbufferProxy.Spec.Peers
import HexbufferProxy.Proof.Peers
import HexbufferProxy.Spec.Expiry
import HexbufferProxy.Proof.Expiry
import HexbufferProxy.Spec.Names
import HexbufferProxy.Proof.Names
import HexbufferProxy.Spec.Sends
import HexbufferProxy.Proof.Sends
import HexbufferProxy.Spec.Spellings
import HexbufferProxy.Proof.Spellings
import HexbufferProxy.Spec.Empty
import HexbufferProxy.Proof.Empty
import HexbufferProxy.Rust.Mirrors
import HexbufferProxy.Spec.Observers
import HexbufferProxy.Proof.Observers
import HexbufferProxy.Rust.Runs
import HexbufferProxy.Model.Passthrough
import HexbufferProxy.Spec.Consent
import HexbufferProxy.Proof.Consent
import HexbufferProxy.Spec.Numbers
import HexbufferProxy.Proof.Numbers
import HexbufferProxy.Rust.Progress
import HexbufferProxy.Spec.Ending
import HexbufferProxy.Proof.Ending
import HexbufferProxy.Spec.Normal
import HexbufferProxy.Proof.Normal
import HexbufferProxy.Rust.Chains
import HexbufferProxy.Spec.Links
import HexbufferProxy.Proof.Links
import HexbufferProxy.Spec.Restarts
import HexbufferProxy.Proof.Restarts
import HexbufferProxy.Spec.Answers
import HexbufferProxy.Proof.Answers
import HexbufferProxy.Model.Inspector
import HexbufferProxy.Spec.Inspector
import HexbufferProxy.Proof.Inspector
