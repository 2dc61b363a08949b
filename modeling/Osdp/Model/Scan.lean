import Osdp.Model.Frame
import Osdp.Library.Window

/-!
# Assembling frames from a port

`panel.reader` and `pd.scanner`: a buffer of fixed size, the number of live octets in it,
and a loop that decodes, drops rubbish and reads. A decoded frame's `Data` and
`Security.Data` are ranges of the buffer, so what a caller sees of a frame is what those
ranges denote when `next` returns (`Frame.readBack`).

A port is the stream of octets still to come and how many of them each read asks for
delivers; a port that has no read left to give fails.
-/

set_option autoImplicit false

namespace Osdp

namespace Frame

/-- Where `Data` starts in the buffer the frame was decoded from: after the mark octet, the
header, the security block and the code.
GOLINE: internal/frame/decode.go:74-95 -/
def dataSlice (f : Frame) : Window.Slice :=
  { start := (if f.hasMark then 1 else 0) + headerSize + SecurityBlock.wireLen f.security + 1
    length := f.data.length }

/-- Where `Security.Data` lies: after the block's length and type octets.
GOLINE: internal/frame/decode.go:113-122 -/
def securitySlice (f : Frame) (s : SecurityBlock) : Window.Slice :=
  { start := (if f.hasMark then 1 else 0) + headerSize + 2
    length := s.data.length }

/-- The frame as it reads while the buffer behind it holds `buf`. -/
def readBack (f : Frame) (buf : Octets) : Frame :=
  { f with
    data := f.dataSlice.of buf
    security := f.security.map fun s => { s with data := (f.securitySlice s).of buf } }

end Frame

namespace Scan

/-- The size of the buffer.
GOLINE: internal/panel/reader.go:20, internal/pd/scan.go:20 -/
def maxFrame : ℕ := 1536

/-- The buffer of a reader and how much of it is live.
GOLINE: internal/panel/reader.go:30-34, internal/pd/scan.go:33-37 -/
structure Scanner where
  buf : Octets
  n : ℕ
  size : buf.length = maxFrame
  fits : n ≤ maxFrame

/-- GOLINE: internal/panel/reader.go:37-39, internal/pd/scan.go:40-42 -/
def new : Scanner :=
  { buf := List.replicate maxFrame 0, n := 0, size := List.length_replicate, fits := Nat.zero_le _ }

namespace Scanner

/-- The live octets, `buf[:n]`. -/
def live (s : Scanner) : Octets := s.buf.take s.n

/-- Forget every live octet. -/
def clear (s : Scanner) : Scanner := { s with n := 0, fits := Nat.zero_le _ }

/-- Drop octets from the front, moving what follows them there.
GOLINE: internal/panel/reader.go:94-100, internal/pd/scan.go:107-113 -/
def consume (s : Scanner) (k : ℕ) : Scanner :=
  if h : k = 0 ∨ k > s.n then s.clear
  else
    { buf := Window.slide k s.n s.buf
      n := s.n - k
      size := by
        rw [Window.length_slide (by rw [s.size]; exact s.fits) (by omega), s.size]
      fits := (Nat.sub_le _ _).trans s.fits }

/-- Drop octets up to the next octet that may start a frame, and say whether there was one.
GOLINE: internal/panel/reader.go:104-113, internal/pd/scan.go:120-128 -/
def resync (s : Scanner) : Bool × Scanner :=
  match (s.live.drop 1).findIdx? fun b => b == som || b == mark with
  | some i => (true, s.consume (i + 1))
  | none => (false, s.clear)

/-- Take octets a read delivered into the buffer. -/
def fill (s : Scanner) (octets : Octets) (h : s.n + octets.length ≤ maxFrame) : Scanner where
  buf := s.live ++ octets ++ s.buf.drop (s.n + octets.length)
  n := s.n + octets.length
  size := by
    have hsize := s.size
    simp only [live, List.length_append, List.length_take, List.length_drop]
    omega
  fits := h

end Scanner

/-- A port: the octets it has yet to deliver, and how many each read to come asks for. -/
structure Port where
  stream : Octets
  reads : List ℕ

/-- What the octets already in the buffer amount to. -/
inductive Verdict where
  | frame (f : Frame)
  /-- A frame that came with `ErrBadCheck`. -/
  | badCheck (f : Frame)
  /-- Nothing that could start a frame is left. -/
  | rubbish (e : DecodeError)
  /-- The frame has not all arrived. -/
  | short

/-- The part of the loop that reads nothing: decode, and drop rubbish as long as something that
could start a frame follows it. Each turn drops an octet at least, so the fuel of `settle` does
not run out. -/
def settleLoop : ℕ → Scanner → Verdict × Scanner
  | 0, s => (.short, s)
  | fuel + 1, s =>
    if s.n = 0 then (.short, s)
    else
      match decode s.live with
      | .ok f => (.frame f, s.consume f.wireLen)
      | .badCheck f => (.badCheck f, s.consume f.wireLen)
      | .error .shortBuffer => (.short, s)
      | .error e =>
        match s.resync with
        | (true, s) => settleLoop fuel s
        | (false, s) => (.rubbish e, s)

/-- GOLINE: internal/panel/reader.go:53-73, internal/pd/scan.go:66-84 -/
def settle (s : Scanner) : Verdict × Scanner := settleLoop (s.n + 1) s

/-- What `next` returned. -/
inductive Result where
  | frame (f : Frame)
  | badCheck (f : Frame)
  | failed (e : DecodeError)
  | timeout
  /-- The port returned an error. -/
  | portFailed
  deriving DecidableEq

/-- Where the loop stands when it has done with what is in the buffer. -/
inductive Turn where
  | returns (r : Result) (s : Scanner)
  | reads (s : Scanner)

/-- One turn of the loop up to the read. A reader that stops at noise returns the decoder's error
for it, and refuses a full buffer that will not decode; one that does not listens on. -/
def turn (stops : Bool) (s : Scanner) : Turn :=
  match settle s with
  | (.frame f, s) => .returns (.frame f) s
  | (.badCheck f, s) => .returns (.badCheck f) s
  | (.rubbish e, s) => if stops then .returns (.failed e) s else .reads s
  | (.short, s) =>
    if s.n = maxFrame then
      if stops then .returns (.failed .lengthMismatch) s.clear else .reads s.clear
    else .reads s

/-- The loop of both packages.
GOLINE: internal/panel/reader.go:51-90, internal/pd/scan.go:65-103 -/
def nextWith (stops : Bool) (s : Scanner) (stream : Octets) : List ℕ → Result × Scanner × Port
  | [] =>
    match turn stops s with
    | .returns r s => (r, s, ⟨stream, []⟩)
    | .reads s => (.portFailed, s, ⟨stream, []⟩)
  | k :: reads =>
    match turn stops s with
    | .returns r s => (r, s, ⟨stream, k :: reads⟩)
    | .reads s =>
      let k := min k (maxFrame - s.n)
      if stream.take k = [] then (.timeout, s, ⟨stream.drop k, reads⟩)
      else
        nextWith stops
          (s.fill (stream.take k) (by
            have hfits := s.fits
            have hlen := List.length_take_le k stream
            omega))
          (stream.drop k) reads

end Scan

namespace Panel

/-- The panel's reader stops at noise: the caller has a device to make a decision about.
GOLINE: internal/panel/reader.go:51-90 -/
def next (r : Scan.Scanner) (port : Scan.Port) : Scan.Result × Scan.Scanner × Scan.Port :=
  Scan.nextWith true r port.stream port.reads

end Panel

namespace Pd

/-- The device's scanner listens on: it did not ask for anything.
GOLINE: internal/pd/scan.go:65-103 -/
def next (s : Scan.Scanner) (port : Scan.Port) : Scan.Result × Scan.Scanner × Scan.Port :=
  Scan.nextWith false s port.stream port.reads

end Pd

end Osdp
