import LibraryRegistry.Rpc.Status
import LibraryRegistry.Wire.Message

/-!
# Frames

A body is a sequence of frames. A frame is a flag, which is zero for a message that is not
compressed, the length of the message in four bytes, most significant first, and the message.

A body may break off behind the length of a frame; the frame then does not count. Messages that are
too long for four bytes to tell their length have no frame, and no law speaks of what is written then.
-/

namespace LibraryRegistry.Rpc

/-- Most bytes of a message. -/
def maxMessageBytes : Nat := 4194304

/-- Every message that has a frame is shorter than this. -/
def frameBound : Nat := 4294967296

/-- The four bytes of a number below `frameBound`, most significant first. -/
def bigEndian (n : Nat) : List UInt8 :=
  [UInt8.ofNat (n / 2 ^ 24), UInt8.ofNat (n / 2 ^ 16), UInt8.ofNat (n / 2 ^ 8), UInt8.ofNat n]

/-- Writes a message that is shorter than `frameBound` as a frame. -/
def encodeFrame (message : List UInt8) : List UInt8 := 0 :: (bigEndian message.length ++ message)

/-- What is wrong with a frame. -/
inductive FrameFault
  | compressed
  | invalidFlag (flag : UInt8)
  | tooLong (length : Nat)
  | brokenOff
  deriving DecidableEq, Repr

/-- Where a frame comes. -/
inductive Direction
  /-- In the body of a reply whose headers leave open how the call ended. -/
  | openReply
  /-- In the body of a request, or of a reply whose headers say that the call has ended. -/
  | other
  deriving DecidableEq, Repr

/-- Where a frame was found, for messages. -/
def Direction.text : Direction → String
  | openReply => " while receiving response with status: 200 OK"
  | other => ", while sending request"

/-- The status of a fault. -/
def FrameFault.status (direction : Direction) : FrameFault → Status
  | compressed =>
    ⟨.internal, "protocol error: received message with compressed-flag but no grpc-encoding was "
      ++ "specified"⟩
  | invalidFlag flag =>
    ⟨.internal, s!"protocol error: received message with invalid compression flag: {flag} "
      ++ "(valid flags are 0 and 1)" ++ direction.text⟩
  | tooLong length =>
    ⟨.outOfRange, s!"Error, decoded message length too large: found {length} bytes, the limit is: "
      ++ s!"{maxMessageBytes} bytes"⟩
  | brokenOff => ⟨.internal, "Unexpected EOF decoding stream."⟩

/-- What the start of a body holds. -/
inductive FrameStep
  | finished
  | message (bytes rest : List UInt8)

/-- Reads one frame. -/
def nextFrame (body : List UInt8) : Except FrameFault FrameStep :=
  match body with
  | flag :: a :: b :: c :: d :: rest =>
    if flag = 1 then .error .compressed
    else if flag ≠ 0 then .error (.invalidFlag flag)
    else
      let length := ((a.toNat * 256 + b.toNat) * 256 + c.toNat) * 256 + d.toNat
      if maxMessageBytes < length then .error (.tooLong length)
      else if length ≤ rest.length then .ok (.message (rest.take length) (rest.drop length))
      else if rest = [] then .ok .finished
      else .error .brokenOff
  | [] => .ok .finished
  | _ => .error .brokenOff

theorem nextFrame_length {body bytes rest : List UInt8}
    (h : nextFrame body = .ok (.message bytes rest)) : rest.length < body.length := by
  unfold nextFrame at h
  split at h
  · next flag a b c d r =>
    dsimp only at h
    split at h
    · cases h
    · split at h
      · cases h
      · split at h
        · cases h
        · split at h
          · simp only [Except.ok.injEq, FrameStep.message.injEq] at h
            rw [← h.2]
            simp only [List.length_drop, List.length_cons]
            omega
          · split at h <;> cases h
  · cases h
  · cases h

/-- Reads all messages of a body. -/
def readMessages {α : Type} (direction : Direction)
    (decode : List UInt8 → Except Wire.DecodeError α) (body : List UInt8) :
    Except Status (List α) :=
  match _h : nextFrame body with
  | .error fault => .error (fault.status direction)
  | .ok .finished => .ok []
  | .ok (.message bytes rest) =>
    match decode bytes with
    | .error e => .error ⟨.internal, e.message⟩
    | .ok a => (readMessages direction decode rest).map (a :: ·)
termination_by body.length
decreasing_by exact nextFrame_length _h

/-- The first of some messages. -/
def firstMessage {α : Type} (missing : String) : List α → Except Status α
  | [] => .error ⟨.internal, missing⟩
  | a :: _ => .ok a

/-- Reads the first message of a body; the others have to be well formed, too. -/
def readMessage {α : Type} (direction : Direction)
    (decode : List UInt8 → Except Wire.DecodeError α) (missing : String) (body : List UInt8) :
    Except Status α :=
  match readMessages direction decode body with
  | .error status => .error status
  | .ok messages => firstMessage missing messages

end LibraryRegistry.Rpc
