import Dragonfly.ShippedPositions

/-!
# Which lines the shipped scripts survive

Over acceptable lines no thread ends, and every run comes to an end where each object was
logged once. A line that is not acceptable raises an error, or goes astray in one of the
queues: the runs in which the threads take their lines one after the other show it.
-/

namespace Dragonfly.Shipped

open Config Events Flywheel Stages

section Survival

variable {Value Table : Type} {setup : Setup Value Table} {startStack : Kind → Stack Value}
  {lines : List (List Byte)}

/-- From its start an analyzer logs the lines at the front of its queue. -/
theorem analyzer_logs (strings : ∀ bytes, setup.lua.toString (setup.string bytes) = some bytes)
    {kind : Kind} {stack : Stack Value} (front rest : List (List Byte)) {state : State Value}
    (passes : ∀ line ∈ front, Passes setup kind line)
    (begins : state.worker kind = ⟨kind.frames setup (front ++ rest), .inside (.test stack)⟩)
    (reached : (system setup startStack lines).Reachable state) :
    ∃ texts : List (List Byte), texts.map some = front.map (kind.entry setup) ∧
      (∀ text ∈ texts, Writable text) ∧
      (system setup startStack lines).Reachable { state with
        worker := Function.update state.worker kind
          ⟨kind.frames setup rest, .inside (.test stack)⟩
        sent := state.sent ++ texts.map (Prod.mk kind)
        log := { state.log with queue := state.log.queue ++ texts.map cut } } := by
  apply messages_logged strings front rest passes
  rw [← begins, Function.update_eq_self]
  exact reached

/-- A line in range that is not acceptable makes the filter raise an error, or is no
object and is forwarded, or is an object whose text, if there is one, cannot be written. -/
theorem unacceptable_cases {line : List Byte} (inRange : InRange line)
    (refused : ¬ Acceptable setup line) :
    suricataFilter setup.cjson line = .raised ∨
      (∃ kind : Kind, suricataFilter setup.cjson line = .analyzeEvent kind.name line ∧
        expected setup line = none) ∨
      ∃ table, setup.cjson.decode line = some (.object table) ∧
        (InRange ((kindOf setup table).packed setup line) →
          ∀ text, (kindOf setup table).text setup table = some text → ¬ Writable text) := by
  unfold Acceptable at refused
  split at refused
  · rename_i table decoded
    refine .inr (.inr ⟨table, decoded, fun packed text encoded writable => ?_⟩)
    exact refused ⟨inRange, packed, text, encoded, writable⟩
  · exact absurd trivial refused
  · rename_i noObject notFalse
    cases decoded : setup.cjson.decode line with
    | none => exact .inl (by rw [suricataFilter, decoded])
    | some eve =>
      cases eve with
      | object table => exact absurd decoded (noObject table)
      | array table =>
        exact .inr (.inl ⟨_, filter_forwards decoded rfl, by rw [expected, decoded]⟩)
      | string bytes =>
        exact .inr (.inl ⟨_, filter_forwards decoded rfl, by rw [expected, decoded]⟩)
      | number numeral => exact .inl (by simp only [suricataFilter, decoded, isAlert])
      | boolean value =>
        cases value with
        | false => exact absurd decoded notFalse
        | true => exact .inl (by simp only [suricataFilter, decoded, isAlert])
      | null => exact .inl (by simp only [suricataFilter, decoded, isAlert])

/-- A line that is not received and not acceptable is an object. -/
theorem refused_unreceived {line : List Byte} (outside : ¬ InRange line)
    (refused : ¬ Acceptable setup line) : ∃ kind, expected setup line = some (kind, line) := by
  unfold Acceptable at refused
  split at refused
  · rename_i table decoded
    exact ⟨kindOf setup table, by rw [expected, decoded]⟩
  · exact absurd trivial refused
  · exact absurd outside refused

/-- With one more line taken, the lines that should have been forwarded are those of the
front and of the line. -/
theorem taken_one_more (front rest : List (List Byte)) (line : List Byte) :
    (front ++ line :: rest).take ((front ++ line :: rest).length - (rest.map cut).length) =
      front ++ [line] := by
  have length : (front ++ line :: rest).length - (rest.map cut).length =
      (front ++ [line]).length := by
    simp only [List.length_append, List.length_cons, List.length_nil, List.length_map]
    omega
  rw [length, List.append_cons front line rest]
  exact List.take_left

/-- An object that is forwarded is lost if its analyzer does not receive it, cannot encode it, or
makes a text of it that cannot be written. -/
theorem object_lost (strings : ∀ bytes, setup.lua.toString (setup.string bytes) = some bytes)
    {front rest : List (List Byte)} {line : List Byte} {kind : Kind} {table : Table}
    (unpacks : ∀ other ∈ front ++ line :: rest, Unpacks setup kind other)
    (acceptable : ∀ other ∈ front, Acceptable setup other)
    (decoded : setup.cjson.decode line = some (.object table))
    (forwards : expected setup line = some (kind, line))
    (unlogged : InRange (kind.packed setup line) →
      ∀ text, kind.text setup table = some text → ¬ Writable text)
    (reached : (system setup startStack (front ++ line :: rest)).Reachable
      (standing setup startStack (front ++ [line]) rest)) :
    ¬ Survives setup startStack (front ++ line :: rest) := by
  intro survives
  have pending : linesFor kind ((front ++ [line]).filterMap (expected setup)) =
      linesFor kind (front.filterMap (expected setup)) ++ [line] := by
    rw [List.filterMap_append, List.filterMap_cons, List.filterMap_nil, forwards]
    simp [lines_for_concat]
  have passes : ∀ other ∈ linesFor kind (front.filterMap (expected setup)),
      Passes setup kind other :=
    fun _ listed => forwarded_passes acceptable (.test front [] (List.append_nil _).symm)
      (fun other inFront => unpacks other (List.mem_append_left _ inFront)) listed
  obtain ⟨texts, entries, writable, waiting⟩ := analyzer_logs strings _ [line] passes
    (by rw [← pending]; rfl) reached
  by_cases packed : InRange (kind.packed setup line)
  · cases encoded : kind.text setup table with
    | none =>
      -- the encoder raises an error, and the process of the analyzer ends
      have received := message_received packed (unpacks line (by simp) packed) waiting
      have raised : kind.loop setup (setup.string line) = .raised := by
        rw [Kind.text] at encoded
        rw [analyzer_object strings decoded, logEncoding, encoded]
      have ended := analyzer_called received (congrArg _ raised)
      have alive := (survives.runs _ ended).2.1 kind
      dsimp only [State.place] at alive
      rw [Function.update_self] at alive
      exact alive
    | some text =>
      -- the text is sent behind those of the front, and the output thread takes them all
      have logged := message_logged strings ⟨table, decoded, encoded⟩ packed
        (unpacks line (by simp) packed) waiting
      have queued : ([] : List (List Byte)) ++ texts.map cut ++ [cut text] =
          (texts ++ [text]).map cut ++ [] := by simp
      dsimp only [standing] at logged
      rw [queued] at logged
      have lines := survives.logs _ (texts_taken (texts ++ [text]) [] [] logged) trivial
      have taken : (([] : List (Kind × List Byte)) ++ texts.map (Prod.mk kind) ++
          [(kind, text)]).map Prod.snd = texts ++ [text] := by
        simp [Function.comp_def]
      dsimp only at lines
      rw [List.length_nil, Nat.sub_zero, List.take_length, taken, List.nil_append,
        List.flatMap_append, all_written writable] at lines
      have whole := List.append_cancel_left lines
      rw [List.flatMap_singleton] at whole
      exact unlogged packed text encoded ((written_iff text).mp whole)
  · have skipped := message_skipped packed waiting
    have entered := congrArg List.length (survives.sends _ kind skipped
      (by dsimp only; rw [Function.update_self]; trivial))
    have sent : linesFor kind (([] : List (Kind × List Byte)) ++ texts.map (Prod.mk kind)) =
        texts := lines_for_own kind texts
    have count := congrArg List.length entries
    simp only [standing, pending, sent, Function.update_self, List.length_map, List.length_nil,
      Nat.sub_zero, List.length_take, List.length_append, List.length_cons] at entered count
    omega

/-- A line that is not acceptable stops the engine or goes astray. -/
theorem refused_lost (strings : ∀ bytes, setup.lua.toString (setup.string bytes) = some bytes)
    {front rest : List (List Byte)} {line : List Byte}
    (unpacks : ∀ kind, ∀ other ∈ front ++ line :: rest, Unpacks setup kind other)
    (acceptable : ∀ other ∈ front, Acceptable setup other) (refused : ¬ Acceptable setup line) :
    ¬ Survives setup startStack (front ++ line :: rest) := by
  intro survives
  have before := front_handled startStack strings front (line :: rest) rfl acceptable
  by_cases inRange : InRange line
  · have received := line_received inRange before
    obtain raised | ⟨kind, sends, dropped⟩ | ⟨table, decoded, unlogged⟩ :=
      unacceptable_cases inRange refused
    · have ended := filter_called received (congrArg _ raised)
      exact (survives.runs _ ended).1
    · have called := filter_called received
        ((congrArg _ sends).trans (forward_call strings _ kind line))
      have forwards := survives.forwards _ called trivial
      dsimp only [State.forward] at forwards
      rw [taken_one_more, sent_dropped dropped] at forwards
      exact List.cons_ne_nil _ _ (List.append_right_eq_self.mp forwards)
    · have forwards : expected setup line = some (kindOf setup table, line) := by
        rw [expected, decoded]
      have called := filter_called received (object_forwarded strings decoded _)
      have after := standing_forward startStack front rest forwards (.inside (.handle () line))
      exact object_lost strings (unpacks (kindOf setup table)) acceptable decoded forwards unlogged
        (after ▸ called) survives
  · obtain ⟨kind, expecting⟩ := refused_unreceived inRange refused
    have skipped := line_skipped inRange before
    have forwards := survives.forwards _ skipped trivial
    dsimp only at forwards
    rw [taken_one_more, List.filterMap_append, List.filterMap_cons, expecting] at forwards
    exact List.cons_ne_nil _ _ (List.append_right_eq_self.mp forwards.symm)

end Survival

/-! ## A small decoder -/

end Dragonfly.Shipped
