import Osdp.Model.Panel

/-!
# Callers of the panel

`Send`, `InstallKey` and `SetCommunication` from any number of goroutines, the channel they put
their requests on, and `Run`, which takes them off it between transactions. The three methods
differ in the request they build and in nothing else. Each makes two `select`s: one to hand the
request over, one for the answer. A `select` may take any branch that is ready, so which one it
takes is part of the operation.

`stopped` is closed as `Run` returns, so it is a fact about where `Run` is.
-/

set_option autoImplicit false

namespace Osdp

namespace Panel

/-- GOLINE: internal/panel/options.go:21 -/
def defaultRequestQueue : ℕ := 16

/-- What a caller is told. -/
inductive Verdict where
  | nil
  | unknownDevice
  | refused (e : Bus.Error)
  | notRunning
  /-- `ctx.Err()`. -/
  | context
  deriving DecidableEq

/-- What `queue` returns.
GOLINE: internal/panel/send.go:120-135 -/
def Verdict.ofQueue : Option Bus.Outcome → Verdict
  | some .accepted => .nil
  | some (.refused e) => .refused e
  | _ => .unknownDevice

/-- Where a caller is: in its first `select`, in its second, or back with an answer. -/
inductive Place where
  | offering
  | waiting
  | returned (v : Verdict)
  deriving DecidableEq

/-- One call of `Send`, `InstallKey` or `SetCommunication`: its request with the slot for the
answer, whether its context is done, and where it is.
GOLINE: internal/panel/send.go:33-39 -/
structure Caller where
  addr : Address
  req : Request
  done : Option Verdict := none
  cancelled : Bool := false
  place : Place := .offering

/-- Where `Run` is: not called, looking at its context, in `drainRequests`, about to begin a
transaction, in `emit`, or returned. -/
inductive Phase where
  | idle
  | top
  | draining
  | transacting
  | publishing
  | returned
  deriving DecidableEq

/-- The panel, where its `Run` is and whether `Run`'s context is done, the requests in the channel
by the index of their caller, and the callers. -/
structure Runtime where
  panel : Panel
  phase : Phase := .idle
  cancelled : Bool := false
  room : ℕ := defaultRequestQueue
  requests : List ℕ := []
  callers : List Caller := []

/-- The three branches of a caller's `select`: the request or the answer goes through, `stopped` is
closed, the context is done. -/
inductive Branch where
  | channel
  | stopped
  | context
  deriving DecidableEq

/-- What `Run` and its surroundings do beside taking requests. -/
inductive LoopOp where
  | run
  | cancel
  | look
  | transact (x : Cycle)
  | publish
  /-- `emit` finds the context done. -/
  | abandon
  /-- The application receives an event. -/
  | receive

inductive Submit where
  | loop (op : LoopOp)
  /-- One turn of the loop of `drainRequests`. -/
  | drain
  | call (addr : Address) (req : Request)
  /-- A caller's context is done. -/
  | cancel (k : ℕ)
  | select (k : ℕ) (branch : Branch)

namespace Runtime

/-- GOLINE: internal/panel/panel.go:66-80 -/
def new (b : Bus) (buffer : ℕ) : Runtime := { panel := { bus := b, buffer := buffer } }

/-- Whether `stopped` is closed. -/
def stopped (s : Runtime) : Bool := decide (s.phase = .returned)

/-- Where `Run` goes on once `emit` has nothing left to send. -/
def published (s : Runtime) : Runtime :=
  if s.phase = .publishing ∧ s.panel.emitting = none then { s with phase := .top } else s

/-- GOLINE: internal/panel/panel.go:125-164, 179-189 -/
def loop (s : Runtime) : LoopOp → Runtime
  | .run =>
    if s.phase = .idle then
      { s with phase := if s.panel.bus.devices = [] then .returned else .top }
    else s
  | .cancel => { s with cancelled := true }
  | .look =>
    if s.phase = .top then { s with phase := if s.cancelled then .returned else .draining } else s
  | .transact x =>
    if s.phase = .transacting then
      let p := s.panel.exchange x
      if p.running then { s with panel := p, phase := .publishing }.published
      else { s with panel := p, phase := .returned }
    else s
  | .publish => if s.phase = .publishing then { s with panel := s.panel.emit }.published else s
  | .abandon =>
    if s.phase = .publishing ∧ s.cancelled = true then
      { s with panel := s.panel.stop, phase := .returned }
    else s
  | .receive => { s with panel := s.panel.receive.2 }.published

/-- The request of the caller at `k` goes onto its device, and the answer into its slot.
GOLINE: internal/panel/send.go:111-112 -/
def take (s : Runtime) (k : ℕ) (c : Caller) : Runtime :=
  { s with
    panel := { s.panel with bus := (queue s.panel.bus c.addr c.req).2 }
    callers := s.callers.set k
      { c with done := some (.ofQueue (queue s.panel.bus c.addr c.req).1) } }

/-- GOLINE: internal/panel/send.go:108-117 -/
def drain (s : Runtime) : Runtime :=
  if s.phase = .draining then
    match s.requests with
    | [] => { s with phase := .transacting }
    | k :: rest =>
      match s.callers[k]? with
      | some c => { s with requests := rest }.take k c
      | none => s
  else s

/-- The caller at `k` returns. -/
def returns (s : Runtime) (k : ℕ) (c : Caller) (v : Verdict) : Runtime :=
  { s with callers := s.callers.set k { c with place := .returned v } }

/-- GOLINE: internal/panel/send.go:79-99, internal/panel/configure.go:31-86 -/
def select (s : Runtime) (k : ℕ) (branch : Branch) : Runtime :=
  match s.callers[k]? with
  | none => s
  | some c =>
    match c.place, branch with
    | .returned _, _ => s
    | .offering, .channel =>
      if s.requests.length < s.room then
        { s with
          requests := s.requests ++ [k]
          callers := s.callers.set k { c with place := .waiting } }
      else s
    | .waiting, .channel =>
      match c.done with
      | some v => s.returns k { c with done := none } v
      | none => s
    | _, .stopped => if s.stopped then s.returns k c .notRunning else s
    | _, .context => if c.cancelled then s.returns k c .context else s

def step (s : Runtime) : Submit → Runtime
  | .loop op => s.loop op
  | .drain => s.drain
  | .call addr req => { s with callers := s.callers ++ [{ addr := addr, req := req }] }
  | .cancel k =>
    match s.callers[k]? with
    | some c => { s with callers := s.callers.set k { c with cancelled := true } }
    | none => s
  | .select k branch => s.select k branch

end Runtime

end Panel

end Osdp
