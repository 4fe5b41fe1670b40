import Dragonfly.OutputThread

/-!
# When the output thread opens its file again

An empty message is received as a result of zero, which ends `lua_output_loop`; the
thread closes the file and opens it again, and a path that ends in `'<'` is opened
in the mode that empties the file. `output_event` sends an empty message for an
empty string and for a value without a string.

The file under the path keeps all lines written since it was opened, and is opened
once, exactly when no message is empty and none asks for a rotation behind a line.
-/

namespace Dragonfly.OutputThread

open Config Events FileOutput Flywheel Stages

/-- The message is written to the file: it is short enough, and it is not the rotate message. -/
def Written (message : List Byte) : Prop :=
  message.length < maxBufferSize ∧ strcasecmp message rotateMessage ≠ 0

/-- The message rotates the file: it is the rotate message, in any case of its letters. -/
def Rotates (message : List Byte) : Prop :=
  message.length < maxBufferSize ∧ strcasecmp message rotateMessage = 0

/-- The buffer for the rotated name has room for at least one byte behind the path. -/
def Sink.Room (sink : Sink) : Prop := sink.handle.path.length < pathMax - 1

/-- No message is empty, and none rotates the file behind one that is written. -/
structure Harmless (sink : Sink) (messages : List (List Byte)) : Prop where
  nonempty : ∀ message ∈ messages, message ≠ []
  ordered : sink.Room → messages.Pairwise fun earlier later =>
    ¬ (Written earlier ∧ Rotates later)

section Runs

variable {Value : Type} {lua : Lua Value} {configuration : Configuration} {queue : Queue}
  {sink : Sink} {before : Directory}

/-- If no message of a sequence harms the file, then none of those at its front does. -/
theorem Harmless.front {front rest : List (List Byte)} (harmless : Harmless sink (front ++ rest)) :
    Harmless sink front := by
  constructor
  · intro message listed
    exact harmless.nonempty message (List.mem_append_left _ listed)
  · intro room
    exact (List.pairwise_append.mp (harmless.ordered room)).1

end Runs

end Dragonfly.OutputThread
