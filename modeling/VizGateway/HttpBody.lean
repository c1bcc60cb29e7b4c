import VizGateway.Lib.Utf8

/-!
# Reading a request body

The body of a request arrives in chunks, each turned into text and appended as it comes, while its
bytes are counted. The read settles once, by whichever comes first: the end of the stream, too many
bytes, the deadline, or a failure of the stream.
-/

namespace VizGateway

structure BodyError where
  message : String
  /-- The status a caller answers with. -/
  statusCode : ℕ
  deriving DecidableEq, Repr

/-- What ends a body. -/
inductive BodyStop
  | ended
  | errored (error : String)
  | aborted
  | timeout
  deriving DecidableEq, Repr

/-- What a read is told. -/
inductive BodyEvent
  | data (chunk : List UInt8)
  | stop (stop : BodyStop)
  deriving DecidableEq, Repr

/-- What a read settles with when it is stopped over some text. -/
def BodyStop.outcome (body : String) : BodyStop → Except BodyError String
  | ended => .ok body
  | errored e => .error ⟨s!"request stream error: {e}", 400⟩
  | aborted => .error ⟨"request aborted by client", 400⟩
  | timeout => .error ⟨"request body read timed out", 408⟩

structure BodyRead where
  body : String := ""
  size : ℕ := 0
  settled : Option (Except BodyError String) := none

def BodyRead.settle (s : BodyRead) (outcome : Except BodyError String) : BodyRead :=
  match s.settled with
  | some _ => s
  | none => { s with settled := some outcome }

def bodyTooLarge (maxBytes : ℕ) : BodyError :=
  ⟨s!"request body exceeds {maxBytes} bytes", 413⟩

def BodyRead.step (maxBytes : ℕ) (s : BodyRead) : BodyEvent → BodyRead
  | .data chunk =>
    let s := { s with size := s.size + chunk.length }
    if maxBytes < s.size then s.settle (.error (bodyTooLarge maxBytes))
    -- `body += chunk` decodes the chunk on its own
    else { s with body := s.body ++ String.ofList (Utf8.decode chunk) }
  | .stop how => s.settle (how.outcome s.body)

/-- What a read settles with, if it does. -/
def readLimitedBody (maxBytes : ℕ) (events : List BodyEvent) : Option (Except BodyError String) :=
  (events.foldl (BodyRead.step maxBytes) {}).settled

end VizGateway
