import Dragonfly.Libc

/-!
# The message queue: `msgqueue_send`, `msgqueue_recv` and `msgqueue_cancel`

A queue is a pipe and a cancel flag. A message is written as one frame, its
length as an `int` followed by its bytes, and read back by two reads, one for
the length and one for the bytes.

Each function is given by its program points. At a point it performs one
operation that other threads can see, a load of the volatile flag or a system
call, and the operation's answer decides where it continues. Everything between
two operations touches only locals and belongs to the earlier one. The queue
pointer is not null.
-/

namespace Dragonfly.Msgqueue

/-- The constant `MAX_MESSAGE_SIZE`: longer messages are cut to this length when they are sent. -/
def maxMessageSize : Int := 32768

/-- The answer of a system call that moves bytes: what was read or how many
bytes were written, or an error number. -/
inductive Answer (Moved : Type) where
  | moved (amount : Moved)
  | failed (errno : Errno)

/-- One shared operation with what follows it: a load of the flag, a read from the pipe, or the
write of a frame. -/
inductive Operation (Point Result : Type) where
  | loadCancel (resume : Bool → Outcome Point Result)
  | read (count : Nat) (resume : Answer (List Byte) → Outcome Point Result)
  | writev (bytes : List Byte) (resume : Answer Nat → Outcome Point Result)

/-! ## Sending -/

/-- The points of `msgqueue_send`: the entry test, the `writev`, the default
branch of the error switch, and the loop condition. -/
inductive SendPoint where
  | enter (buffer : List Byte) (length : Int)
  | writev (iov : List Byte)
  | writevFailed (iov : List Byte)
  | test (iov : List Byte) (n : Int)

/-- The two buffers of the `writev`, one after the other. -/
def iovBytes (buffer : List Byte) (length : Int) : List Byte :=
  intBytes length ++ buffer.take length.toNat

/-- The function `msgqueue_send`: it tests the flag, cuts the message and writes its frame,
again where the pipe was full for the moment. -/
def msgqueueSend : SendPoint → Operation SendPoint Int
  | .enter buffer length => .loadCancel fun cancel =>
      if cancel then .ret (-1)
      else
        let length := if length > maxMessageSize then maxMessageSize else length
        .goto (.writev (iovBytes buffer length))
  | .writev iov => .writev iov fun
      | .moved count => if count = 0 then .ret 0 else .goto (.test iov count)
      | .failed .etimedout => .goto (.test iov (-1))
      | .failed .eagain => .goto (.test iov (-1))
      | .failed _ => .goto (.writevFailed iov)
  | .writevFailed iov => .loadCancel fun cancel =>
      if cancel then .goto (.test iov (-1)) else .exit
  | .test iov n => .loadCancel fun cancel =>
      if !cancel && decide (n < 0) then .goto (.writev iov) else .ret n

/-! ## Receiving -/

/-- The value `msgqueue_recv` returns, and what the calls of `read` put at the
start of the buffer. -/
structure Received where
  n : Int
  data : List Byte
deriving DecidableEq

/-- The points of `msgqueue_recv`: the entry test, the read of the length, the
default branch of its error switch, the test of the flag between the reads, the
read of the payload, the default branch of its error switch, and the loop
condition. The local `l` is -1 until a length was read. -/
inductive RecvPoint where
  | enter (maxSize : Int)
  | header (maxSize : Int) (l : Int)
  | headerFailed (maxSize : Int) (l : Int)
  | between (maxSize : Int) (l : Int)
  | payload (maxSize : Int) (l : Int)
  | payloadFailed (maxSize : Int) (l : Int)
  | test (maxSize : Int) (l : Int) (received : Received)
deriving DecidableEq

/-- The conversion of an `int` count to `size_t`, which makes a very large count of a negative
one. -/
def sizeT (count : Int) : Nat :=
  if 0 ≤ count then count.toNat else (count + 18446744073709551616).toNat

/-- The body of the loop reads only while no length is known. -/
def loopBody (maxSize l : Int) (received : Received) : RecvPoint :=
  if l < 0 then .header maxSize l else .test maxSize l received

/-- What follows the read of the length: a message that cannot fit ends the
process. -/
def headerDone (maxSize l : Int) : Outcome RecvPoint Received :=
  if l > maxSize then .exit else .goto (.between maxSize l)

/-- `msgqueue_recv`. A failed read of the length falls through to the read of
the payload; `l` is then still negative and its conversion to a count is huge. -/
def msgqueueRecv : RecvPoint → Operation RecvPoint Received
  | .enter maxSize => .loadCancel fun cancel =>
      if cancel then .ret ⟨-1, []⟩
      else
        let maxSize := if maxSize > maxMessageSize then maxMessageSize else maxSize
        .goto (loopBody maxSize (-1) ⟨0, []⟩)
  | .header maxSize l => .read 4 fun
      | .moved bytes =>
          if bytes.length = 0 then .ret ⟨0, []⟩ else headerDone maxSize (overwriteInt l bytes)
      | .failed .etimedout => headerDone maxSize l
      | .failed .eagain => headerDone maxSize l
      | .failed _ => .goto (.headerFailed maxSize l)
  | .headerFailed maxSize l => .loadCancel fun cancel =>
      if cancel then headerDone maxSize l else .exit
  | .between maxSize l => .loadCancel fun cancel =>
      if cancel then .ret ⟨0, []⟩ else .goto (.payload maxSize l)
  | .payload maxSize l => .read (sizeT l) fun
      | .moved bytes =>
          if bytes.length = 0 then .ret ⟨0, []⟩
          else .goto (.test maxSize l ⟨bytes.length, bytes⟩)
      | .failed .etimedout => .goto (.test maxSize l ⟨-1, []⟩)
      | .failed .eagain => .goto (.test maxSize l ⟨-1, []⟩)
      | .failed _ => .goto (.payloadFailed maxSize l)
  | .payloadFailed maxSize l => .loadCancel fun cancel =>
      if cancel then .goto (.test maxSize l ⟨-1, []⟩) else .exit
  | .test maxSize l received => .loadCancel fun cancel =>
      if !cancel && decide (received.n < 0) then .goto (loopBody maxSize l received)
      else .ret received

/-! ## Frames -/

/-- The frame of a message that fits: its length and its bytes. -/
def frame (message : List Byte) : List Byte := intBytes message.length ++ message

/-- The bytes of several messages in a pipe: their frames, one after the other. -/
def frames (messages : List (List Byte)) : List Byte := messages.flatMap frame

@[simp] theorem frames_nil : frames [] = [] := rfl

@[simp] theorem frames_cons (message : List Byte) (rest : List (List Byte)) :
    frames (message :: rest) = frame message ++ frames rest := rfl

@[simp] theorem frames_append (first second : List (List Byte)) :
    frames (first ++ second) = frames first ++ frames second := by
  simp [frames]

@[simp] theorem frame_length (message : List Byte) :
    (frame message).length = 4 + message.length := by
  simp [frame]

/-- A message within the limit is written as its frame. -/
theorem iov_is_frame (message : List Byte) (fits : (message.length : Int) ≤ maxMessageSize) :
    iovBytes message
        (if (message.length : Int) > maxMessageSize then maxMessageSize else message.length) =
      frame message := by
  rw [if_neg (Int.not_lt.mpr fits)]
  simp [iovBytes, frame]

/-- The four bytes in front of a frame decode to its message's length, whatever
the variable held before. -/
theorem frame_header (message : List Byte) (fits : (message.length : Int) ≤ maxMessageSize)
    (old : Int) : overwriteInt old (intBytes message.length) = message.length := by
  unfold maxMessageSize at fits
  exact overwrite_whole old message.length (by omega) (by omega)

end Dragonfly.Msgqueue
