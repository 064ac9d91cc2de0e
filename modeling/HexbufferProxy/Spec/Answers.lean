import HexbufferProxy.Model.Server

/-!
# What the client of a tunnel gets for its requests

A tunnel stays open from one request to the next. Its client sends them one after the other, and has
to know which answer belongs to which.
-/

namespace HexbufferProxy

open Rust

namespace Event

/-- The client of a tunnel is given a response. -/
def isReply : Event → Bool
  | reply _ => true
  | _ => false

/-- Which handler lets a request through, if the event is that. -/
def letsThrough : Event → Option ℕ
  | request i _ _ .forward => some i
  | _ => none

/-- Part of the task that an upgrade leaves behind. -/
def isSwitch : Event → Bool
  | wsConnect _ | relayUpgraded .. => true
  | _ => false

end Event

/-- What has been done for a request that leaves its tunnel open: the client is given one response,
in the end. -/
def Served (es : List Event) : Prop :=
  ∃ work res, es = work ++ [.reply res] ∧ ∀ e ∈ work, e.isReply = false

/-- What has been done for a request that ends its tunnel: each of the `k` handlers has let it
through, one after the other, and that is all, or the client is told to switch the protocol. -/
def EndsTunnel (k : ℕ) (es : List Event) : Prop :=
  ∃ asked rest, es = asked ++ rest ∧ asked.map Event.letsThrough = (List.range k).map some ∧
    (rest = [] ∨ ∃ res task, rest = .reply res :: task ∧ ∀ e ∈ task, e.isSwitch = true)

/-- What happens on a tunnel: a request, with all that is done for it, or its client closes it. -/
inductive Turn where
  | request (es : List Event)
  | close

/-- The tunnel is over: nothing is done for any request. -/
def IdleTurns (turns : List Turn) : Prop := ∀ es, .request es ∈ turns → es = []

/-- **The requests of a tunnel are answered one by one**, up to the first that ends it, or until the
client closes it. Nothing is done for those that come later. -/
inductive AnsweredInTurn (k : ℕ) : List Turn → Prop
  | none : AnsweredInTurn k []
  | served (es : List Event) (later : List Turn) (hes : Served es)
      (h : AnsweredInTurn k later) : AnsweredInTurn k (.request es :: later)
  | ends (es : List Event) (later : List Turn) (hes : EndsTunnel k es)
      (h : IdleTurns later) : AnsweredInTurn k (.request es :: later)
  | close (later : List Turn) (h : IdleTurns later) : AnsweredInTurn k (.close :: later)

namespace Server

variable {ω : Type}

/-- The `i`-th tunnel is open. -/
def Open (s : Server ω) (i : ℕ) : Prop := ∃ t, s.tunnels[i]? = some t ∧ t.live = true

/-- What an action is for the `i`-th tunnel. -/
def turnOf (i : ℕ) (es : List Event) : Action → Option Turn
  | .request j _ => if j = i then some (.request es) else none
  | .close j => if j = i then some .close else none
  | _ => none

/-- What happens on the `i`-th tunnel. -/
def turns (env : Env ω) (users : List (UserHandler ω)) (ws : Option (WebSocketHandler ω))
    (n i : ℕ) (s : Server ω) : List Action → List Turn
  | [] => []
  | a :: as =>
    let p := s.step env users ws n a
    (turnOf i p.2 a).toList ++ turns env users ws n i p.1 as

end Server

end HexbufferProxy
