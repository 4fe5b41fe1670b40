import Dragonfly.TailReader

/-!
# Truncation in place

A truncated file leaves the descriptor where it was. Until the reader notices,
it stands astray: it reads nothing while the file is shorter, and reads from the
middle of the new content once it is longer. It notices only at an end of the
file, by a size smaller than the one it remembers from an earlier end of the
file in the same call of `tail_next_line`; a new call remembers zero.

While every comparison made astray finds a smaller size, no line written after
the truncation is skipped once the end of the file has been polled.
-/

namespace Dragonfly.TailReader

open Tail

variable {logdir path : Path} {len : Nat}

/-- A step that truncates the open file does so for the first time in its run; no other file is
truncated. -/
def OneTruncation (state : State) : Label → Prop
  | .truncate inode => state.truncation = none ∧ state.opened.map OpenFile.inode = some inode
  | _ => True

/-- A comparison of sizes that a descriptor left behind makes finds the file
smaller than remembered; a comparison of inodes is made under a name of the open
file. -/
def NoticedAt (state : State) : ReaderPoint → Prop
  | .reading (.fstat _ file locals) =>
      ∀ history ∈ state.truncation, history.behind = true →
        (state.fs.files file.inode).length < locals.lastFileSize
  | .reading (.stat file descriptor _ _) => state.fs.names file = some descriptor.inode
  | _ => True

/-- A step in which the reader misses no truncation: where it compares sizes astray it finds the
file shorter than remembered, and where it compares inodes the open file is under its name. -/
def TruncationNoticed (state : State) : Label → Prop
  | .reader _ => NoticedAt state state.point
  | _ => True

instance (state : State) (label : Label) : Decidable (OneTruncation state label) :=
  match label with
  | .truncate inode => inferInstanceAs (Decidable
      (state.truncation = none ∧ state.opened.map OpenFile.inode = some inode))
  | .reader _ => .isTrue trivial
  | .append _ _ => .isTrue trivial

instance (state : State) (point : ReaderPoint) : Decidable (NoticedAt state point) :=
  match point with
  | .reading (.fstat _ file locals) => inferInstanceAs (Decidable
      (∀ history ∈ state.truncation, history.behind = true →
        (state.fs.files file.inode).length < locals.lastFileSize))
  | .reading (.stat file descriptor _ _) => inferInstanceAs (Decidable
      (state.fs.names file = some descriptor.inode))
  | .reading (.enter _) => .isTrue trivial
  | .reading (.reopen _ _ _) => .isTrue trivial
  | .reading (.read _ _ _) => .isTrue trivial
  | .reading (.lseek _ _ _ _) => .isTrue trivial
  | .reading (.clock _ _ _ _) => .isTrue trivial
  | .reading (.close _ _ _) => .isTrue trivial
  | .reading (.moved _ _ _) => .isTrue trivial
  | .opening _ => .isTrue trivial
  | .failed => .isTrue trivial

instance (state : State) (label : Label) : Decidable (TruncationNoticed state label) :=
  match label with
  | .reader _ => inferInstanceAs (Decidable (NoticedAt state state.point))
  | .append _ _ => .isTrue trivial
  | .truncate _ => .isTrue trivial

/-- Once an end-of-file iteration was completed after the truncation, every
nonempty terminated line in front of the descriptor has been returned since. -/
def NothingSkipped (state : State) : Prop :=
  ∀ history point file, state.truncation = some history → history.polled = true →
    state.point = .reading point → descriptor point = some file →
      (lineResults ((state.fs.files file.inode).take file.offset)).Sublist history.since

/-- The points of a reader whose descriptor stands in a content that is gone. -/
inductive Astray (file : Path) (target : Inode) : TailPoint → Prop where
  | enter (offset : Nat) : Astray file target (.enter ⟨some ⟨target, offset⟩, file⟩)
  | read (offset : Nat) (locals : Locals) : Astray file target (.read file ⟨target, offset⟩ locals)
  | fstat (offset : Nat) (locals : Locals) :
      Astray file target (.fstat file ⟨target, offset⟩ locals)
  | lseek (offset : Nat) (locals : Locals) (fdstat : Stat) (same : fdstat.inode = target) :
      Astray file target (.lseek file ⟨target, offset⟩ locals fdstat)
  | clock (offset : Nat) (locals : Locals) (fdstat : Stat) (same : fdstat.inode = target) :
      Astray file target (.clock file ⟨target, offset⟩ locals fdstat)
  | stat (offset : Nat) (locals : Locals) (fdstat : Stat) (same : fdstat.inode = target) :
      Astray file target (.stat file ⟨target, offset⟩ locals fdstat)

/-- A reader that follows a file is astray once the content is gone. -/
theorem follows_astray {system : FileSystem} {file : Path} {target : Inode} {base offset : Nat}
    {pieces : List (Piece Byte)} {line : List Byte} {point : TailPoint}
    (follows : Follows False system len file target base offset pieces line point)
    (stays : point.closes = false) : Astray file target point ∧ rewinds point = false := by
  cases follows.reading with
  | enter => exact ⟨.enter offset, rfl⟩
  | read locals => exact ⟨.read offset locals, rfl⟩
  | fstat locals => exact ⟨.fstat offset locals, rfl⟩
  | lseek locals fdstat same fresh => exact fresh.1.elim
  | clock locals fdstat same => exact ⟨.clock offset locals fdstat same, rfl⟩
  | stat locals fdstat same => exact ⟨.stat offset locals fdstat same, rfl⟩
  | close locals => cases stays

/-- What a system call of a reader that is astray leads to: it stays astray, and
seeks next exactly if it just called `fstat`; or the seek brought it to the start
of the new content. -/
inductive AstrayProgress (system : FileSystem) (len : Nat) (file : Path) (target : Inode) :
    TailPoint → Outcome TailPoint Returned → Prop where
  | within (point after : TailPoint) (astray : Astray file target after)
      (unsought : rewinds point = false) (noticed : polls point = rewinds after) :
      AstrayProgress system len file target point (.goto after)
  | returned (point : TailPoint) (offset : Nat) (n : Int) (data : List Byte)
      (unsought : rewinds point = false) (unpolled : polls point = false) :
      AstrayProgress system len file target point (.ret ⟨⟨some ⟨target, offset⟩, file⟩, n, data⟩)
  | rewound (point after : TailPoint) (sought : rewinds point = true)
      (unfinished : iterated after = false) (stays : after.closes = false)
      (follows : Follows True system len file target 0 0 [] [] after) :
      AstrayProgress system len file target point (.goto after)

/-- A call of `tail_next_line` that returns is followed by the next one, inside
the same call of `tail_read_line` or in a new one. -/
theorem astray_returned {system : FileSystem} {file : Path} {target : Inode} (point : TailPoint)
    (offset : Nat) (n : Int) (data : List Byte) (unsought : rewinds point = false)
    (unpolled : polls point = false) :
    AstrayProgress system len file target point
      ((Outcome.ret ⟨⟨some ⟨target, offset⟩, file⟩, n, data⟩).call id fun returned =>
        if returned.n = 0 then .goto (.enter returned.handle) else .ret returned) := by
  by_cases empty : n = 0
  · simp only [Outcome.call, empty, if_true]
    exact .within _ _ (.enter offset) unsought unpolled
  · simp only [Outcome.call, empty, if_false]
    exact .returned _ offset n data unsought unpolled

/-- The end of the loop keeps the reader astray: it reads on at the same offset, or returns what
fills its buffer. -/
theorem astray_loop_end {system : FileSystem} {file : Path} {target : Inode} (point : TailPoint)
    (offset : Nat) (locals : Locals) (unsought : rewinds point = false)
    (unpolled : polls point = false) :
    AstrayProgress system len file target point
      ((loopEnd len ⟨some ⟨target, offset⟩, file⟩ locals).call id fun returned =>
        if returned.n = 0 then .goto (.enter returned.handle) else .ret returned) := by
  by_cases room : locals.line.length < len
  · rw [loop_end_reads room]
    exact .within _ _ (.read offset locals) unsought unpolled
  · rw [loopEnd, if_neg room]
    exact astray_returned point offset _ _ unsought unpolled

/-- A reader that is astray stays so until it notices, and it notices at its next
comparison of sizes. -/
theorem astray_step {system : FileSystem} {file : Path} {target : Inode} {point : TailPoint}
    (astray : Astray file target point)
    (noticed : ∀ offset locals, point = .fstat file ⟨target, offset⟩ locals →
      (system.files target).length < locals.lastFileSize)
    (leads : point.checks → system.names file = some target) (now : Int) :
    AstrayProgress system len file target point (system.perform now (tailReadLine len point)) := by
  rw [perform_read_line]
  cases astray with
  | enter offset => exact .within _ _ (.read offset ⟨now, 0, 0, []⟩) rfl rfl
  | read offset locals =>
    simp only [tailNextLine, FileSystem.perform]
    cases next : (system.files target)[offset]? with
    | none =>
      have ended : system.readByte ⟨target, offset⟩ = .endOfFile := by
        simp [FileSystem.readByte, next]
      rw [ended]
      exact .within _ _ (.fstat offset locals) rfl rfl
    | some value =>
      have got : system.readByte ⟨target, offset⟩ = .byte value ⟨target, offset + 1⟩ := by
        simp [FileSystem.readByte, next, OpenFile.advance]
      rw [got]
      by_cases terminated : value = newline
      · simp only [afterByte, if_pos terminated]
        exact astray_returned _ _ _ _ rfl rfl
      · simp only [afterByte, if_neg terminated]
        exact astray_loop_end _ _ _ rfl rfl
  | fstat offset locals =>
    have smaller : (system.status target).size < locals.lastFileSize := noticed offset locals rfl
    simp only [tailNextLine, FileSystem.perform, if_pos smaller]
    exact .within _ _ (.lseek offset locals (system.status target) rfl) rfl rfl
  | lseek offset locals fdstat same =>
    exact .rewound _ _ rfl rfl rfl ⟨Delivered.initial len 0 (Nat.zero_le _),
      .clock { locals with line := [], lastFileSize := _ } fdstat same (.inr ⟨trivial, rfl, rfl⟩)⟩
  | clock offset locals fdstat same =>
    simp only [tailNextLine, FileSystem.perform]
    by_cases late : now - locals.lastReadTime ≥ fiveSeconds
    · rw [if_pos late]
      exact .within _ _ (.stat offset { locals with lastReadTime := now } fdstat same) rfl rfl
    · rw [if_neg late]
      exact astray_loop_end _ offset locals rfl rfl
  | stat offset locals fdstat same =>
    have equal : ¬ fdstat.inode ≠ (system.status target).inode := fun different => different same
    simp only [tailNextLine, FileSystem.perform, leads rfl, Option.map_some, if_neg equal]
    exact astray_loop_end _ offset locals rfl rfl

/-! ## Runs -/

/-- The reader of a file that is truncated at most once: before the truncation it
follows the file; afterwards it is astray and has completed no poll, or follows
the new content, whose reports end what it returned since. -/
inductive Survives (file : Path) (len : Nat) (state : State) : Prop where
  | opening (point : OpenPoint) (place : state.point = .opening point)
      (unopened : state.opened = none) (untruncated : state.truncation = none)
      (opening : Opening state.fs file (fun _ => True) point)
  | failed (place : state.point = .failed) (unopened : state.opened = none)
      (untruncated : state.truncation = none)
  | whole (target : Inode) (base offset : Nat) (pieces : List (Piece Byte)) (line : List Byte)
      (point : TailPoint) (place : state.point = .reading point)
      (opened : state.opened = some ⟨target, base⟩) (untruncated : state.truncation = none)
      (stays : point.closes = false)
      (follows : Follows False state.fs len file target base offset pieces line point)
  | astray (target : Inode) (base : Nat) (point : TailPoint) (history : Truncation)
      (place : state.point = .reading point) (opened : state.opened = some ⟨target, base⟩)
      (truncated : state.truncation = some history) (behind : history.behind = true)
      (unpolled : history.polled = false) (polling : history.polling = true → rewinds point = true)
      (astray : Astray file target point)
  | renewed (target : Inode) (base offset : Nat) (pieces : List (Piece Byte)) (line : List Byte)
      (point : TailPoint) (history : Truncation) (earlier : List ReadResult)
      (place : state.point = .reading point) (opened : state.opened = some ⟨target, base⟩)
      (truncated : state.truncation = some history) (level : history.behind = false)
      (since : history.since = earlier ++ pieces.map (fun piece => lineResult piece.items))
      (stays : point.closes = false)
      (follows : Follows True state.fs len file target 0 offset pieces line point)

/-- The files of a reader whose file grows, or is truncated once. -/
theorem Survives.appended {file : Path} {state : State} (survives : Survives file len state)
    (inode : Inode) (bytes : List Byte) :
    Survives file len { state with fs := state.fs.append inode bytes } := by
  have grown := state.fs.append_grown inode bytes
  cases survives with
  | opening point place unopened untruncated opening =>
    exact .opening point place unopened untruncated
      (opening.carried rfl grown (fun _ _ _ _ => trivial))
  | failed place unopened untruncated => exact .failed place unopened untruncated
  | whole target base offset pieces line point place opened untruncated stays follows =>
    exact .whole target base offset pieces line point place opened untruncated stays
      (follows.carried (grown target) (fun _ _ leads => leads))
  | astray target base point history place opened truncated behind unpolled polling astray =>
    exact .astray target base point history place opened truncated behind unpolled polling astray
  | renewed target base offset pieces line point history earlier place opened truncated level
      since stays follows =>
    exact .renewed target base offset pieces line point history earlier place opened truncated
      level since stays (follows.carried (grown target) (fun _ _ leads => leads))

/-- A reader that has read nothing yet follows the truncated file from its start. -/
theorem follows_restarted {system : FileSystem} {file : Path} {target : Inode} {base : Nat}
    {pieces : List (Piece Byte)} {line : List Byte} {point : TailPoint}
    (follows : Follows False system len file target base 0 pieces line point)
    (stays : point.closes = false) :
    Follows True (system.truncate target) len file target 0 0 [] line point := by
  have nothing : line = [] := by
    have split := follows.delivered.split
    simp only [stretch, List.take_zero, List.drop_nil, split_of_nil, Split.mk.injEq] at split
    exact split.2.2.symm
  constructor
  · exact nothing ▸ Delivered.initial len 0 (Nat.zero_le _)
  · cases follows.reading with
    | enter => exact .enter
    | read locals => exact .read locals (.inr ⟨trivial, rfl, rfl⟩)
    | fstat locals => exact .fstat locals (.inr ⟨trivial, rfl, rfl⟩)
    | lseek locals fdstat same fresh => exact fresh.1.elim
    | clock locals fdstat same => exact .clock locals fdstat same (.inr ⟨trivial, rfl, rfl⟩)
    | stat locals fdstat same => exact .stat locals fdstat same (.inr ⟨trivial, rfl, rfl⟩)
    | close locals => cases stays

/-- The first truncation of the open file leaves the reader astray, or at the
start of the new content. -/
theorem Survives.cut {file : Path} {state : State} {inode : Inode}
    (survives : Survives file len state) (first : OneTruncation state (.truncate inode)) :
    Survives file len (truncateNext state inode) := by
  obtain ⟨untruncated, tailed⟩ := first
  cases survives with
  | opening point place unopened => simp [unopened] at tailed
  | failed place unopened => simp [unopened] at tailed
  | astray target base point history place opened truncated => simp [untruncated] at truncated
  | renewed target base offset pieces line point history earlier place opened truncated =>
    simp [untruncated] at truncated
  | whole target base offset pieces line point place opened untruncated stays follows =>
    have same : target = inode := by simpa [opened] using tailed
    subst same
    have cut : truncateNext state target =
        { state with
          fs := state.fs.truncate target
          truncation := some ⟨decide (0 < offset), false, false, []⟩ } := by
      simp only [truncateNext, place, follows_descriptor follows, if_true]
    rw [cut]
    by_cases started : 0 < offset
    · exact .astray target base point _ place opened rfl (decide_eq_true started) rfl
        (fun impossible => absurd impossible Bool.false_ne_true) (follows_astray follows stays).1
    · have zero : offset = 0 := Nat.eq_zero_of_not_pos started
      subst zero
      exact .renewed target base 0 [] line point _ [] place opened rfl (decide_eq_false started) rfl
        stays (follows_restarted follows stays)

/-- Reports a reader returned since a truncation end what it returned since. -/
theorem since_advanced {state after : State} {point next : TailPoint}
    {pieces more : List (Piece Byte)} {history : Truncation} {earlier : List ReadResult}
    (advanced : Advanced state point pieces more next after)
    (truncated : state.truncation = some history) (level : history.behind = false)
    (since : history.since = earlier ++ pieces.map (fun piece => lineResult piece.items)) :
    ∃ renewed, after.truncation = some renewed ∧ renewed.behind = false ∧
      renewed.since = earlier ++ more.map (fun piece => lineResult piece.items) := by
  cases advanced with
  | continued =>
    refine ⟨history.observe point next, by simp [State.continued, truncated], ?_, since⟩
    simp [Truncation.observe, level]
  | answered handle piece =>
    refine ⟨{ history.observe point (.enter handle) with
        since := history.since ++ [⟨piece.items.length, piece.items⟩] }, ?_, ?_, ?_⟩
    · simp [State.answered, truncated]
    · simp [Truncation.observe, level]
    · simp [since, lineResult]

/-- A reader without history gets none from its own steps. -/
theorem untruncated_advanced {state after : State} {point next : TailPoint}
    {pieces more : List (Piece Byte)} (advanced : Advanced state point pieces more next after)
    (untruncated : state.truncation = none) : after.truncation = none := by
  cases advanced with
  | continued => simp [State.continued, untruncated]
  | answered handle piece => simp [State.answered, untruncated]

/-- A step astray completes no end-of-file iteration before the seek. -/
theorem history_astray {history : Truncation} {point after : TailPoint}
    (unpolled : history.polled = false)
    (polling : history.polling = true → rewinds point = true) (unsought : rewinds point = false)
    (noticed : polls point = rewinds after) :
    (history.observe point after).behind = history.behind ∧
      (history.observe point after).polled = false ∧
      ((history.observe point after).polling = true → rewinds after = true) := by
  have quiet : history.polling = false := by
    by_contra loud
    rw [polling (eq_true_of_ne_false loud)] at unsought
    cases unsought
  have unfinished : (polls point && iterated after) = false := by
    rw [noticed]
    cases after <;> rfl
  constructor
  · simp [Truncation.observe, unsought]
  · constructor
    · simpa [Truncation.observe, unpolled, quiet] using unfinished
    · simp [Truncation.observe, quiet, noticed]

/-- Where a comparison notices what it can, the path leads to the file that is followed. -/
theorem noticed_leads {changed : Prop} {file : Path} {state : State} {target : Inode}
    {base offset : Nat} {pieces : List (Piece Byte)} {line : List Byte} {point : TailPoint}
    {now : Int} (noticed : TruncationNoticed state (.reader now))
    (place : state.point = .reading point)
    (follows : Follows changed state.fs len file target base offset pieces line point) :
    point.checks → state.fs.names file = some target := by
  intro checks
  cases follows.reading with
  | stat locals fdstat => simpa [TruncationNoticed, NoticedAt, place] using noticed
  | _ => cases checks

/-- A step astray, in which a comparison notices the truncation, leaves the reader astray
or at the start of the new content. -/
theorem astray_advances {state after : State} {now : Int} {target : Inode} {base : Nat}
    {point : TailPoint} {history : Truncation} (place : state.point = .reading point)
    (opened : state.opened = some ⟨target, base⟩) (truncated : state.truncation = some history)
    (behind : history.behind = true) (unpolled : history.polled = false)
    (polling : history.polling = true → rewinds point = true)
    (astray : Astray (filePath logdir path) target point)
    (noticed : TruncationNoticed state (.reader now))
    (moved : readerNext logdir path len state now = some after) :
    Survives (filePath logdir path) len after := by
  have leads : point.checks → state.fs.names (filePath logdir path) = some target := by
    intro checks
    cases astray with
    | stat offset locals fdstat => simpa [TruncationNoticed, NoticedAt, place] using noticed
    | _ => cases checks
  have smaller : ∀ offset locals,
      point = .fstat (filePath logdir path) ⟨target, offset⟩ locals →
        (state.fs.files target).length < locals.lastFileSize := by
    rintro offset locals rfl
    simp only [TruncationNoticed, NoticedAt, place] at noticed
    exact noticed history truncated behind
  have progress : AstrayProgress state.fs len (filePath logdir path) target point
      (state.fs.perform now (tailReadLine len point)) := astray_step astray smaller leads now
  simp only [readerNext, place] at moved
  generalize state.fs.perform now (tailReadLine len point) = outcome at progress moved
  cases progress with
  | within next astray unsought noticed =>
    obtain ⟨stillBehind, stillUnpolled, stillPolling⟩ :=
      history_astray unpolled polling unsought noticed
    refine Option.some.inj moved ▸ .astray target base next (history.observe point next) rfl
      opened ?_ (stillBehind.trans behind) stillUnpolled stillPolling astray
    simp [State.continued, truncated]
  | returned offset n data unsought quiet =>
    have unnoticed : polls point =
        rewinds (.enter ⟨some ⟨target, offset⟩, filePath logdir path⟩) := quiet
    obtain ⟨stillBehind, stillUnpolled, stillPolling⟩ :=
      history_astray unpolled polling unsought unnoticed
    exact Option.some.inj moved ▸ .astray target base _
      { history.observe point (.enter ⟨some ⟨target, offset⟩, filePath logdir path⟩) with
        since := history.since ++ [⟨n, data⟩] }
      rfl opened (by simp only [State.answered, truncated, Option.map_some])
      (stillBehind.trans behind) stillUnpolled stillPolling (.enter offset)
  | rewound next sought unfinished remains follows =>
    refine Option.some.inj moved ▸ .renewed target base 0 [] [] next
      (history.observe point next) history.since rfl opened ?_ ?_ ?_ remains follows
    · simp [State.continued, truncated]
    · simp [Truncation.observe, sought]
    · simp [Truncation.observe]

/-- Each step of a run with one truncation, in which every comparison made astray
notices it, keeps the reader safe. -/
theorem survives_step (positive : 0 < len) {state after : State} {label : Label}
    (survives : Survives (filePath logdir path) len state) (once : OneTruncation state label)
    (noticed : TruncationNoticed state label)
    (moved : next logdir path len state label = some after) :
    Survives (filePath logdir path) len after := by
  cases label with
  | append inode bytes => exact Option.some.inj moved ▸ survives.appended inode bytes
  | truncate inode => exact Option.some.inj moved ▸ survives.cut once
  | reader now =>
    change readerNext logdir path len state now = some after at moved
    cases survives with
    | failed place unopened untruncated =>
      rw [readerNext, place] at moved
      cases moved
    | opening point place unopened untruncated opening =>
      cases reader_opens logdir path place opening moved with
      | within next opening => exact .opening next rfl unopened untruncated opening
      | missing => exact .failed rfl unopened untruncated
      | opened inode offset leads within =>
        refine .whole inode offset offset [] [] _ rfl rfl untruncated rfl ?_
        exact ⟨Delivered.initial len offset within, .enter⟩
    | whole target base offset pieces line point place opened untruncated stays follows =>
      obtain ⟨reached, more, rest, next, advanced, remains, placed, same, kept⟩ :=
        follows_moved positive place follows stays (noticed_leads noticed place follows) moved
      exact .whole target base reached more rest next placed (same.trans opened)
        (untruncated_advanced advanced untruncated) remains kept
    | renewed target base offset pieces line point history earlier place opened truncated level
        since stays follows =>
      obtain ⟨reached, more, rest, next, advanced, remains, placed, same, kept⟩ :=
        follows_moved positive place follows stays (noticed_leads noticed place follows) moved
      obtain ⟨renewed, newer, still, longer⟩ := since_advanced advanced truncated level since
      exact .renewed target base reached more rest next renewed earlier placed
        (same.trans opened) newer still longer remains kept
    | astray target base point history place opened truncated behind unpolled polling astray =>
      exact astray_advances place opened truncated behind unpolled polling astray noticed moved

/-- When every comparison made astray notices the truncation, no line written
after it is skipped. -/
theorem truncation_survived {state : State}
    (reached : (system logdir path len).Reaches
      (fun state label => OneTruncation state label ∧ TruncationNoticed state label) state)
    {target : Inode} {base : Nat} (opened : state.opened = some ⟨target, base⟩)
    (short : (linesOf newline (state.fs.files target)).Short len) : NothingSkipped state := by
  have positive : 0 < len := Nat.lt_of_le_of_lt (Nat.zero_le _) short.2
  have survives : Survives (filePath logdir path) len state := by
    apply reached.invariant
    · rintro _ ⟨fs, rfl⟩
      exact .opening _ rfl rfl rfl .openFile
    · exact fun _ _ _ survives admitted moved =>
        survives_step positive survives admitted.1 admitted.2 moved
  intro history point file truncated polled place standing
  cases survives with
  | opening opening place' => simp [place'] at place
  | failed place' => simp [place'] at place
  | whole target' base' offset pieces line point' place' opened' untruncated =>
    simp [untruncated] at truncated
  | astray target' base' point' history' place' opened' truncated' behind unpolled =>
    rw [truncated'] at truncated
    rw [← Option.some.inj truncated, unpolled] at polled
    cases polled
  | renewed target' base' offset pieces line point' history' earlier place' opened' truncated'
      level since stays follows =>
    have samePoint : point' = point := by simpa [place'] using place
    have sameHistory : history' = history := Option.some.inj (truncated'.symm.trans truncated)
    have sameTarget : target' = target := by
      simpa using congrArg (Option.map OpenFile.inode) (opened'.symm.trans opened)
    subst samePoint sameHistory sameTarget
    have sameFile := Option.some.inj ((follows_descriptor follows).symm.trans standing)
    subst sameFile
    have reported := (split_short (short.initial (List.take_prefix offset _))).1
    have split := follows.delivered.split
    rw [stretch, List.drop_zero] at split
    rw [split] at reported
    rw [since, lineResults, ← reported, List.map_map]
    exact List.sublist_append_right _ _

/-- The reader polls the end of `"ab\n"` and remembers its size; the file is
truncated and `"c\n"` written; the next poll notices and the line is returned. -/
theorem truncation_survived_noticed : ∃ state,
    state.truncation.map (fun history => (history.polled, history.since)) =
        some (true, [⟨1, [99]⟩]) ∧ NothingSkipped state := by
  have run : ∃ state, (system [47] [47, 120] 8).follow
      [.reader 0, .reader 0, .reader 0, .reader 0, .append 1 [97, 98, 10],
        .reader 0, .reader 0, .reader 0, .reader 0,
        .reader 0, .reader 0, .reader 0, .reader 0, .truncate 1, .append 1 [99, 10],
        .reader 0, .reader 0, .reader 0, .reader 0, .reader 0, .reader 0]
      (initial [47] [47, 120] (oneFile [])) = some state ∧
      state.truncation.map (fun history => (history.polled, history.since)) =
        some (true, [⟨1, [99]⟩]) ∧ state.opened = some ⟨1, 0⟩ ∧ state.fs.files 1 = [99, 10] :=
    ⟨_, rfl, rfl, rfl, rfl⟩
  obtain ⟨state, completed, history, opened, content⟩ := run
  have started : (system [47] [47, 120] 8).start (initial [47] [47, 120] (oneFile [])) :=
    ⟨_, rfl⟩
  have short : (linesOf newline (state.fs.files 1)).Short 8 := by
    rw [content]
    decide
  have reached : (system [47] [47, 120] 8).Reaches
      (fun state label => OneTruncation state label ∧ TruncationNoticed state label) state :=
    (System.Reaches.initial started).followed _ state (by decide) completed
  exact ⟨state, history, truncation_survived reached opened short⟩

/-- A reader that is truncated between two of its calls remembers no size: a poll
notices nothing, and the lines that then grow under its descriptor are skipped. -/
theorem truncation_between_calls_skips :
    ¬ ∀ state, (system [47] [47, 120] 8).Reaches OneTruncation state →
      state.opened = some ⟨1, 0⟩ → (linesOf newline (state.fs.files 1)).Short 8 →
        NothingSkipped state := by
  intro claimed
  have run : ∃ state, (system [47] [47, 120] 8).follow
      [.reader 0, .reader 0, .reader 0, .reader 0, .append 1 [97, 98, 10],
        .reader 0, .reader 0, .reader 0, .reader 0, .truncate 1,
        .reader 0, .reader 0, .reader 0, .reader 0, .append 1 [99, 10, 100, 10]]
      (initial [47] [47, 120] (oneFile [])) = some state ∧
      state.truncation = some ⟨true, true, true, []⟩ ∧
      state.point = .reading (.read [47, 120] ⟨1, 3⟩ ⟨0, 0, 0, []⟩) ∧
      state.opened = some ⟨1, 0⟩ ∧ state.fs.files 1 = [99, 10, 100, 10] :=
    ⟨_, rfl, rfl, rfl, rfl, rfl⟩
  obtain ⟨state, completed, history, place, opened, content⟩ := run
  have started : (system [47] [47, 120] 8).start (initial [47] [47, 120] (oneFile [])) :=
    ⟨_, rfl⟩
  have reached : (system [47] [47, 120] 8).Reaches OneTruncation state :=
    (System.Reaches.initial started).followed _ state (by decide) completed
  have short : (linesOf newline (state.fs.files 1)).Short 8 := by
    rw [content]
    decide
  have skipped := claimed state reached opened short _ _ _ history rfl place rfl
  rw [content] at skipped
  exact absurd skipped.length_le (by decide)

end Dragonfly.TailReader
