import Osdp.Model.Scan
import Osdp.Model.Pd

/-!
# The loop that serves a device

`pd.Server`: a scanner over a port, a device, and a loop that answers whatever the scanner
finds. The application's `Report*` and `Set*` calls take the device's lock, so they fall
between two calls of `Handle`, which is where the machine below has them. What a read of an
iteration delivers is an argument of the iteration, so the stream may come in any chunks.
Cancellation, which makes `Run` return nil, is left out.
-/

set_option autoImplicit false

namespace Osdp.Pd

open Osdp.Secure (Rnd)

/-- Why `Run` returned an error. -/
inductive Stop where
  /-- The port failed. -/
  | port
  | scan (e : DecodeError)
  /-- `Handle` returned an error other than `ErrNoReply`. -/
  | device (e : Error)
  /-- `Append` refused the reply. -/
  | encode (e : EncodeError)
  deriving DecidableEq, Repr

/-- GOLINE: internal/pd/server.go:36-45 -/
structure Server where
  device : Device
  scan : Scan.Scanner := Scan.new
  /-- The replies written to the port, the latest last. -/
  written : List Octets := []
  stopped : Option Stop := none

/-- What one iteration meets: the port as far as its reads go, the clock, and the random octets
`Handle` may draw. -/
structure Iteration where
  port : Scan.Port
  now : ℤ := 0
  rndB : Rnd := Secure.zeroRnd

namespace Server

/-- The command of an iteration, answered.
GOLINE: internal/pd/serve.go:71-86 -/
def answer (s : Server) (x : Iteration) (command : Frame) : Server :=
  match s.device.handle x.now x.rndB command with
  | (.error e, d) =>
    if e.isNoReply then { s with device := d } else { s with device := d, stopped := some (.device e) }
  | (.ok reply, d) =>
    match reply.append [] with
    | .error e => { s with device := d, stopped := some (.encode e) }
    | .ok out => { s with device := d, written := s.written ++ [out] }

/-- One iteration of the loop. A frame with a bad check is handed over like any other, and `Handle`
reads either where it lies, when what followed it has been moved to the front of the buffer.
GOLINE: internal/pd/serve.go:47-87 -/
def iterate (s : Server) (x : Iteration) : Server :=
  match next s.scan x.port with
  | (.timeout, scan, _) => { s with scan := scan }
  | (.portFailed, scan, _) => { s with scan := scan, stopped := some .port }
  | (.failed e, scan, _) => { s with scan := scan, stopped := some (.scan e) }
  | (.frame f, scan, _) => { s with scan := scan }.answer x (f.readBack scan.buf)
  | (.badCheck f, scan, _) => { s with scan := scan }.answer x (f.readBack scan.buf)

/-- What happens at a served device. -/
inductive Op where
  | report (r : Report)
  | iterate (x : Iteration)

/-- One such step. A loop that returned does nothing more; the application may call on. -/
def step (s : Server) : Op → Server
  | .report r => { s with device := (s.device.report r).2 }
  | .iterate x => if s.stopped.isSome then s else s.iterate x

end Server

end Osdp.Pd
