import Osdp.Model.Calls
import Osdp.Model.Pd

/-!
# A panel and a device on one line

One device record of the panel's bus and one peripheral device, joined by a channel that
may drop a command or a reply and does nothing else to either. One exchange is what
`Panel.cycle` and `Server.Run` make of it: `Next`, the frame to `Handle`, and its answer
to `Reply`, or `Timeout` for want of one. A device whose `Handle` fails for any other
reason than that there is nothing to say is served no longer.

Frames pass as values here. What the two loops do with octets is left out: `Append`, which
refuses a frame that is too long, `Decode`, the buffers of `reader.next` and `scanner.next`,
and reads that bring parts of several frames.
-/

set_option autoImplicit false

namespace Osdp

open Osdp.Secure (Rnd)

/-- What the channel does with an exchange. -/
inductive Fate where
  | commandLost
  | replyLost
  | delivered
  deriving DecidableEq, Repr

/-- One exchange: the reading of the device's clock, the random octets each side may draw, what
the channel does, and whether the driver takes a reply that `Reply` refuses for a silence, as
`Panel.await` does. -/
structure Exchange where
  now : ℤ := 0
  rndA : Rnd := Secure.zeroRnd
  rndB : Rnd := Secure.zeroRnd
  fate : Fate
  awaits : Bool := true

/-- A panel's record of a device, the device itself, and whether it is still served. -/
structure Line where
  panel : Bus.Device
  device : Pd.Device
  serving : Bool := true

namespace Line

/-- The device's turn, without the `Append` and the write of its reply.
GOLINE: internal/pd/serve.go:68-81 -/
def serve (l : Line) (x : Exchange) (f : Frame) : Option Frame × Line :=
  if l.serving then
    match l.device.handle x.now x.rndB f with
    | (.ok r, d) => (some r, { l with device := d })
    | (.error e, d) => (none, { l with device := d, serving := e.isNoReply })
  else (none, l)

/-- The reply that comes back for a frame, if one does. -/
def carry (l : Line) (x : Exchange) (f : Frame) : Option Frame × Line :=
  match x.fate with
  | .commandLost => (none, l)
  | .replyLost => (none, (l.serve x f).2)
  | .delivered => l.serve x f

/-- The panel hears nothing. -/
def silence (l : Line) : Option Bus.Event × Line :=
  (some (Bus.timeout l.panel).1, { l with panel := (Bus.timeout l.panel).2 })

/-- The panel's turn, the reply being read whole.
GOLINE: internal/panel/cycle.go:61-117 -/
def await (b : Bus) (l : Line) (x : Exchange) : Option Frame → Option Bus.Event × Line
  | none => l.silence
  | some r =>
    match Bus.reply b l.panel r with
    | (.ok e, p) => (some e, { l with panel := p })
    | (.error _, p) =>
      if x.awaits then { l with panel := p }.silence else (none, { l with panel := p })

/-- One exchange, and the event it gave; the `Append` and the write of the command are left out.
GOLINE: internal/panel/cycle.go:24-52 -/
def exchange (b : Bus) (l : Line) (x : Exchange) : Option Bus.Event × Line :=
  match Bus.transact b l.panel x.rndA with
  | (.error _, p) => (none, { l with panel := p })
  | (.ok f, p) => ({ l with panel := p }.carry x f).2.await b x ({ l with panel := p }.carry x f).1

end Line

end Osdp
