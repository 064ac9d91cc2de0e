import HexbufferProxy.Model.Handler

/-!
# Byte tunnels (`https_proxy.rs`, `ws_proxy.rs`)

The passthrough branch of `handle_https` runs two `tokio::io::copy` loops under one `select!`;
`relay_websocket` runs `copy_bidirectional`. A `Pipe` is one direction: the bytes its sender has
still to send, those that wait to be read, those in the buffer of the copy loop, and those that
have been written to the receiver. A tunnel goes through the steps of its ends and of its two
loops in any order; what tells the two kinds of tunnel apart is when they are over.
-/

namespace HexbufferProxy

open Rust

/-- The buffer of a copy loop. -/
def copyBufSize : ℕ := 8192

structure Pipe where
  unsent : Bytes
  arrived : Bytes
  /-- The sender has closed its side. -/
  fin : Bool
  buf : Bytes
  received : Bytes
  /-- The copy loop has returned. -/
  done : Bool
deriving DecidableEq

namespace Pipe

def start (bs : Bytes) : Pipe := ⟨bs, [], false, [], [], false⟩

/-- What has not reached the receiver. -/
def rest (p : Pipe) : Bytes := p.buf ++ p.arrived ++ p.unsent

def send (k : ℕ) (p : Pipe) : Pipe :=
  { p with unsent := p.unsent.drop k, arrived := p.arrived ++ p.unsent.take k }

/-- A sender closes its side when it has sent everything. -/
def halfClose (p : Pipe) : Pipe := if p.unsent = [] then { p with fin := true } else p

def read (k : ℕ) (p : Pipe) : Pipe :=
  let n := min k (copyBufSize - p.buf.length)
  { p with arrived := p.arrived.drop n, buf := p.buf ++ p.arrived.take n }

def write (k : ℕ) (p : Pipe) : Pipe :=
  { p with buf := p.buf.drop k, received := p.received ++ p.buf.take k }

/-- The copy loop returns. -/
def finish (p : Pipe) : Pipe := { p with done := true }

/-- The copy loop reads the end of the stream, with nothing left to write. -/
def atEof (p : Pipe) : Bool := p.fin && p.arrived.isEmpty && p.buf.isEmpty

end Pipe

/-- What happens next in a tunnel: a step of an end, of a copy loop, or an I/O error. A step that
is not possible does nothing. -/
inductive TunnelStep where
  | send (d : Direction) (k : ℕ)
  | halfClose (d : Direction)
  | read (d : Direction) (k : ℕ)
  | write (d : Direction) (k : ℕ)
  | eof (d : Direction)
  | fail
deriving DecidableEq

inductive TunnelStatus where
  | running
  | ended
  | failed
deriving DecidableEq

structure Tunnel where
  pipe : Direction → Pipe
  status : TunnelStatus

namespace Tunnel

/-- A tunnel between a client that will send `a` and a server that will send `b`. -/
def start (a b : Bytes) : Tunnel where
  pipe
    | .clientToServer => Pipe.start a
    | .serverToClient => Pipe.start b
  status := .running

def onPipe (t : Tunnel) (d : Direction) (f : Pipe → Pipe) : Tunnel :=
  { t with pipe := Function.update t.pipe d (f (t.pipe d)) }

/-- A step of a tunnel that is over when `ends` says so of the directions whose copy loop has
returned. -/
def step (ends : (Direction → Bool) → Bool) (t : Tunnel) (e : TunnelStep) : Tunnel :=
  match t.status with
  | .running =>
    match e with
    | .send d k => t.onPipe d (Pipe.send k)
    | .halfClose d => t.onPipe d Pipe.halfClose
    | .read d k => t.onPipe d (Pipe.read k)
    | .write d k => t.onPipe d (Pipe.write k)
    | .eof d =>
      if (t.pipe d).atEof then
        let t := t.onPipe d Pipe.finish
        if ends fun d => (t.pipe d).done then { t with status := .ended } else t
      else t
    | .fail => { t with status := .failed }
  | _ => t

end Tunnel

/-- The passthrough tunnel: `select!` returns when the first of the two copies does. -/
def passthrough : Tunnel → TunnelStep → Tunnel :=
  Tunnel.step fun done => done .clientToServer || done .serverToClient

/-- `relay_websocket`: `copy_bidirectional` returns when both directions have ended. -/
def relayWebsocket : Tunnel → TunnelStep → Tunnel :=
  Tunnel.step fun done => done .clientToServer && done .serverToClient

end HexbufferProxy
