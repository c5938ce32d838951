/-
  `experiments/events.py`: the event log of an experiment, through any number of processes.

  The log is a file of JSON lines. A process reads it once when it opens the log, ends a
  torn last line before its first write, and appends one line for an event. It may be
  killed after any byte of a write. What JSON makes of an event, and of a line, comes in by
  `encode` and `decode`; `Encodes` is what is used of them. JSON writes ASCII only, so a
  character is a byte.

  `event_log_recovery`: a log opened later holds the events whose whole text has reached
  the file, in their order, and no others.
-/
import NeuroForge.Lib.LineLog
import NeuroForge.Lib.Transition

namespace NeuroForge

open LineLog

inductive EventType where
  | experimentCreated | candidateGenerated | candidateEvaluated | generationCompleted
  | benchmarkUpdated | promotionRequested | candidatePromoted | candidateRejected
  | canaryStarted | rollbackTriggered | experimentStopped
  deriving DecidableEq, Repr

structure Event (π : Type) where
  eventType : EventType
  experimentId : String
  payload : π
  timestamp : String
  deriving DecidableEq

/-! ## Reading a file -/

/-- The characters `str.splitlines` breaks at. -/
def isLineBreak (c : Char) : Bool :=
  c ∈ ['\n', '\r', '\x0b', '\x0c', '\x1c', '\x1d', '\x1e', '\u0085', '\u2028', '\u2029']

/-- `str.splitlines`: a carriage return and the line feed after it are one break. -/
def splitlines : List Char → List (List Char)
  | [] => []
  | '\r' :: '\n' :: rest => [] :: splitlines rest
  | c :: rest =>
      if isLineBreak c then [] :: splitlines rest
      else
        match splitlines rest with
        | [] => [[c]]
        | line :: more => (c :: line) :: more

/-- `str.isspace` of a character. -/
def isSpace (c : Char) : Bool :=
  c ∈ ['\t', '\n', '\x0b', '\x0c', '\r', '\x1c', '\x1d', '\x1e', '\x1f', ' ', '\u0085',
      '\u00a0', '\u1680', '\u2028', '\u2029', '\u202f', '\u205f', '\u3000'] ||
    (0x2000 ≤ c.toNat && c.toNat ≤ 0x200a)

section Log

variable {π : Type} (encode : Event π → List Char) (decode : List Char → Option (Event π))

/-- The event of a line, if it is one; a blank or torn line is skipped. -/
def parseLine (line : List Char) : Option (Event π) :=
  if line.all isSpace then none else decode line

def readEvents (file : List Char) : List (Event π) :=
  (splitlines file).filterMap (parseLine decode)

/-- An open log. A file that does not exist is an empty one. -/
structure EventLog (π : Type) where
  events : List (Event π)
  tailChecked : Bool := false

namespace EventLog

/-- `EventLog(path)`. -/
def load (file : List Char) : EventLog π where
  events := readEvents decode file

def all (log : EventLog π) : List (Event π) := log.events

def ofType (log : EventLog π) (eventType : EventType) : List (Event π) :=
  log.events.filter (·.eventType = eventType)

/-- What `_terminate_torn_tail` appends. -/
def tornTailEnd (log : EventLog π) (file : List Char) : List Char :=
  if log.tailChecked ∨ file = [] ∨ file.getLast? = some '\n' then [] else ['\n']

/-- What an `emit` appends, byte after byte. -/
def written (log : EventLog π) (file : List Char) (event : Event π) : List Char :=
  log.tornTailEnd file ++ (encode event ++ ['\n'])

def emit (log : EventLog π) (file : List Char) (event : Event π) : EventLog π × List Char :=
  ({ events := log.events ++ [event], tailChecked := true },
    file ++ log.written encode file event)

end EventLog

/-! ## Processes -/

/-- The file, the process that has it open, and the events whose text is in the file. -/
structure LogState (π : Type) where
  file : List Char := []
  process : Option (EventLog π) := none
  reached : List (Event π) := []

inductive LogAction (π : Type) where
  /-- a process opens the log -/
  | start
  | emit (event : Event π)
  /-- the process is killed when `bytes` bytes of this `emit` are written -/
  | killedIn (event : Event π) (bytes : ℕ)
  /-- the process ends, or is killed between two writes -/
  | stop

def LogAction.event? : LogAction π → Option (Event π)
  | .emit event => some event
  | .killedIn event _ => some event
  | _ => none

/-- One process after another. -/
def logStep (s : LogState π) (a : LogAction π) : Option (LogState π) :=
  match s.process, a with
  | none, .start => some { s with process := some (.load decode s.file) }
  | some log, .emit event =>
      let (log', file') := log.emit encode s.file event
      some ⟨file', some log', s.reached ++ [event]⟩
  | some log, .killedIn event bytes =>
      some {
        file := s.file ++ (log.written encode s.file event).take bytes
        process := none
        reached :=
          if (log.tornTailEnd s.file).length + (encode event).length ≤ bytes then
            s.reached ++ [event]
          else s.reached }
  | some _, .stop => some { s with process := none }
  | _, _ => none

/-! ## Recovery -/

/-- What JSON does with an event: its text is an object on one line, the text is decoded to
    the event, and no proper beginning of it is decoded at all. -/
structure Encodes (event : Event π) : Prop where
  object : (encode event).head? = some '{'
  oneLine : ∀ c ∈ encode event, isLineBreak c = false
  decoded : decode (encode event) = some event
  torn : ∀ text, text <+: encode event → text ≠ encode event → decode text = none

/-- Line feeds are the only breaks of a file. -/
def CleanText (text : List Char) : Prop := ∀ c ∈ text, isLineBreak c = true → c = '\n'

variable {encode decode}

theorem splitlines_eq {text : List Char} (h : CleanText text) :
    splitlines text = lines isLineBreak text := by
  have hreturn : '\r' ∉ text := fun hmem => by
    have := h '\r' hmem (by decide)
    cases this
  clear h
  fun_induction splitlines text with
  | case1 => rfl
  | case2 rest ih => exact absurd List.mem_cons_self hreturn
  | case3 c rest hc hbreak ih =>
      rw [lines, if_pos hbreak, ih fun hmem => hreturn (List.mem_cons_of_mem _ hmem)]
  | case4 c rest hc hbreak hrest ih =>
      rw [lines, if_neg hbreak, ← ih fun hmem => hreturn (List.mem_cons_of_mem _ hmem), hrest]
  | case5 c rest hc hbreak line more hrest ih =>
      rw [lines, if_neg hbreak, ← ih fun hmem => hreturn (List.mem_cons_of_mem _ hmem), hrest]

theorem cleanText_append {text more : List Char} :
    CleanText (text ++ more) ↔ CleanText text ∧ CleanText more := by
  unfold CleanText
  constructor
  · intro h
    exact ⟨fun c hc => h c (List.mem_append_left _ hc),
      fun c hc => h c (List.mem_append_right _ hc)⟩
  · rintro ⟨h, h'⟩ c hc
    rcases List.mem_append.mp hc with hc | hc
    · exact h c hc
    · exact h' c hc

theorem CleanText.take {text : List Char} (h : CleanText text) (bytes : ℕ) :
    CleanText (text.take bytes) :=
  fun c hc => h c (List.mem_of_mem_take hc)

theorem Encodes.cleanLine {event : Event π} (h : Encodes encode decode event) :
    CleanText (encode event ++ ['\n']) := by
  refine cleanText_append.mpr ⟨fun c hc hbreak => ?_, fun c hc _ => List.mem_singleton.mp hc⟩
  rw [h.oneLine c hc] at hbreak
  cases hbreak

/-- Text after a closed file is read on its own. -/
theorem readEvents_append {file text : List Char} (hfile : CleanText file)
    (htext : CleanText text) (hclosed : Closed isLineBreak file) :
    readEvents decode (file ++ text) = readEvents decode file ++ readEvents decode text := by
  unfold readEvents
  rw [splitlines_eq (cleanText_append.mpr ⟨hfile, htext⟩), splitlines_eq hfile,
    splitlines_eq htext, lines_append hclosed, List.filterMap_append]

/-- A line feed after a torn line changes nothing that is read. -/
theorem readEvents_lineFeed {file : List Char} (hfile : CleanText file)
    (hopen : ¬ Closed isLineBreak file) :
    readEvents decode (file ++ ['\n']) = readEvents decode file := by
  have hfeed : CleanText ['\n'] := fun c hc _ => List.mem_singleton.mp hc
  unfold readEvents
  rw [splitlines_eq (cleanText_append.mpr ⟨hfile, hfeed⟩), splitlines_eq hfile,
    lines_append_break rfl hopen]

/-- What is read of a line that has been cut off: its event, once its text is complete. -/
theorem readEvents_take {event : Event π} (h : Encodes encode decode event) (bytes : ℕ) :
    readEvents decode ((encode event ++ ['\n']).take bytes) =
      if (encode event).length ≤ bytes then [event] else [] := by
  have hparse : parseLine decode (encode event) = some event := by
    unfold parseLine
    obtain ⟨rest, hrest⟩ := List.head?_eq_some_iff.mp h.object
    have hspace : (encode event).all isSpace = false := by
      rw [hrest]
      rfl
    rw [hspace]
    exact h.decoded
  have hne : encode event ≠ [] := by
    intro hnil
    have hobject := h.object
    rw [hnil] at hobject
    cases hobject
  unfold readEvents
  rw [splitlines_eq (h.cleanLine.take bytes)]
  split_ifs with hbytes
  · -- the whole text, perhaps with its line feed
    have hlines : lines isLineBreak ((encode event ++ ['\n']).take bytes) = [encode event] := by
      rw [List.take_append, List.take_of_length_le hbytes]
      rcases Nat.eq_zero_or_pos (bytes - (encode event).length) with hzero | hpos
      · rw [hzero, List.take_zero, List.append_nil]
        exact lines_of_noBreak hne h.oneLine
      · have hfeed : [('\n' : Char)].length ≤ bytes - (encode event).length := by
          rw [List.length_singleton]
          omega
        rw [List.take_of_length_le hfeed]
        exact lines_noBreak_break rfl hne h.oneLine
    rw [hlines]
    simp [hparse]
  · -- a fragment
    have hshort : bytes ≤ (encode event).length := by omega
    rw [List.take_append_of_le_length hshort]
    have hnone : parseLine decode ((encode event).take bytes) = none := by
      unfold parseLine
      split_ifs
      · rfl
      · refine h.torn _ (List.take_prefix _ _) fun heq => hbytes ?_
        have hlength := congrArg List.length heq
        rw [List.length_take] at hlength
        omega
    rcases heq : (encode event).take bytes with _ | ⟨c, rest⟩
    · rfl
    · rw [← heq, lines_of_noBreak (by simp [heq]) fun c hc =>
        h.oneLine c (List.mem_of_mem_take hc)]
      simp [hnone]

namespace EventLog

/-- What ends a torn line is a line feed, or nothing where no line is torn. -/
theorem tornTailEnd_cases (log : EventLog π) {file : List Char} (hclean : CleanText file)
    (hchecked : log.tailChecked = true → Closed isLineBreak file) :
    (log.tornTailEnd file = [] ∧ Closed isLineBreak file) ∨
      (log.tornTailEnd file = ['\n'] ∧ ¬ Closed isLineBreak file) := by
  unfold tornTailEnd
  split_ifs with h
  · refine .inl ⟨rfl, ?_⟩
    rcases h with h | rfl | h
    · exact hchecked h
    · exact closed_nil
    · intro c hc
      rw [h] at hc
      rw [← Option.some.inj hc]
      rfl
  · refine .inr ⟨rfl, fun hclosed => h ?_⟩
    rcases hlast : file.getLast? with _ | c
    · exact .inr (.inl (List.getLast?_eq_none_iff.mp hlast))
    · have hc := hclean c (List.mem_of_getLast? hlast) (hclosed c hlast)
      exact .inr (.inr (by rw [hc]))

theorem written_clean (log : EventLog π) (file : List Char) {event : Event π}
    (h : Encodes encode decode event) : CleanText (log.written encode file event) := by
  refine cleanText_append.mpr ⟨?_, h.cleanLine⟩
  unfold tornTailEnd
  split_ifs
  · exact fun c hc => absurd hc List.not_mem_nil
  · exact fun c hc _ => List.mem_singleton.mp hc

/-- What is read after the first `bytes` bytes of an `emit`: what was read before, and the
    event if they hold its text. -/
theorem readEvents_written (log : EventLog π) {file : List Char} {event : Event π}
    (hclean : CleanText file) (hchecked : log.tailChecked = true → Closed isLineBreak file)
    (h : Encodes encode decode event) (bytes : ℕ) :
    readEvents decode (file ++ (log.written encode file event).take bytes) =
      if (log.tornTailEnd file).length + (encode event).length ≤ bytes then
        readEvents decode file ++ [event]
      else readEvents decode file := by
  unfold written
  rcases log.tornTailEnd_cases hclean hchecked with ⟨htail, hclosed⟩ | ⟨htail, hopen⟩
  · rw [htail, List.nil_append, readEvents_append hclean (h.cleanLine.take bytes) hclosed,
      readEvents_take h]
    simp only [List.length_nil, Nat.zero_add]
    split_ifs
    · rfl
    · exact List.append_nil _
  · rw [htail]
    cases bytes with
    | zero => simp
    | succ bytes =>
        have hended : CleanText (file ++ ['\n']) :=
          cleanText_append.mpr ⟨hclean, fun c hc _ => List.mem_singleton.mp hc⟩
        have hsplit : file ++ (['\n'] ++ (encode event ++ ['\n'])).take (bytes + 1) =
            (file ++ ['\n']) ++ (encode event ++ ['\n']).take bytes := by
          simp
        rw [hsplit, readEvents_append hended (h.cleanLine.take bytes) (closed_concat rfl _),
          readEvents_lineFeed hclean hopen, readEvents_take h]
        simp only [List.length_singleton]
        split_ifs
        · rfl
        · omega
        · omega
        · exact List.append_nil _

end EventLog

/-- The file says what has reached it, and a process that has checked its end knows it to be
    closed. -/
structure Recovers (decode : List Char → Option (Event π)) (s : LogState π) : Prop where
  clean : CleanText s.file
  read : readEvents decode s.file = s.reached
  checked : ∀ log, s.process = some log → log.tailChecked = true → Closed isLineBreak s.file

theorem recovers_start : Recovers decode {} where
  clean c hc := absurd hc (List.not_mem_nil)
  read := rfl
  checked log hlog := by cases hlog

theorem Recovers.step {s s' : LogState π} {a : LogAction π} (h : Recovers decode s)
    (ha : ∀ event, a.event? = some event → Encodes encode decode event)
    (hstep : logStep encode decode s a = some s') : Recovers decode s' := by
  obtain ⟨file, process, reached⟩ := s
  obtain ⟨hclean, hread, hchecked⟩ := h
  dsimp only at hclean hread hchecked
  unfold logStep at hstep
  split at hstep
  · -- a process opens the log
    rw [← Option.some.inj hstep]
    refine ⟨hclean, hread, fun log hlog hlogged => ?_⟩
    rw [← Option.some.inj hlog] at hlogged
    cases hlogged
  · -- an event is emitted
    rename_i log event hlog
    have hjson := ha event rfl
    have hwritten := log.written_clean file hjson
    rw [← Option.some.inj hstep]
    refine ⟨cleanText_append.mpr ⟨hclean, hwritten⟩, ?_, fun log' hlog' _ => ?_⟩
    · have hall := log.readEvents_written hclean (hchecked log hlog) hjson
        (log.written encode file event).length
      rw [List.take_length] at hall
      dsimp only [EventLog.emit]
      rw [hall, if_pos, hread]
      unfold EventLog.written
      simp only [List.length_append]
      omega
    · dsimp only [EventLog.emit, EventLog.written]
      rw [← List.append_assoc, ← List.append_assoc]
      exact closed_concat rfl _
  · -- a process is killed in a write
    rename_i log event bytes hlog
    have hjson := ha event rfl
    have hwritten := log.written_clean file hjson
    rw [← Option.some.inj hstep]
    refine ⟨cleanText_append.mpr ⟨hclean, hwritten.take bytes⟩, ?_, fun log' hlog' => ?_⟩
    · dsimp only
      rw [log.readEvents_written hclean (hchecked log hlog) hjson bytes, hread]
    · cases hlog'
  · -- a process ends
    rw [← Option.some.inj hstep]
    refine ⟨hclean, hread, fun log hlog => ?_⟩
    cases hlog
  · cases hstep

/-- **Event log recovery.** However many processes have opened the log, whatever they have
    emitted and whichever bytes they were killed after, a log opened afterwards holds the
    events whose whole text has reached the file, in the order they were emitted. -/
theorem event_log_recovery {actions : List (LogAction π)} {s : LogState π}
    (hjson : ∀ a ∈ actions, ∀ event, a.event? = some event → Encodes encode decode event)
    (hrun : Transition.run (logStep encode decode) {} actions = some s) :
    (EventLog.load decode s.file).all = s.reached := by
  have hguarded := (Transition.guarded_true (logStep encode decode) {} actions).and_mem hjson
  have hrecovers : Recovers decode s :=
    Transition.run_invariant_of_guarded (fun s a s' h ha => h.step ha.2) recovers_start hguarded
      hrun
  exact hrecovers.read

end Log

section Example

/-- What `json.dumps` makes of a `GenerationCompleted` event; the payload is its number. -/
def exampleEncode (event : Event ℕ) : List Char :=
  "\x7b\"event_type\": \"GenerationCompleted\", \"experiment_id\": \"".toList ++
    event.experimentId.toList ++ "\", \"payload\": \x7b\"generation\": ".toList ++
    Nat.toDigits 10 event.payload ++ "\x7d, \"timestamp\": \"".toList ++
    event.timestamp.toList ++ "\"\x7d".toList

def exampleEvent (generation : ℕ) : Event ℕ where
  eventType := .generationCompleted
  experimentId := "exp-1"
  payload := generation
  timestamp := "2026-01-05T10:00:00+00:00"

def exampleEvents : List (Event ℕ) := [exampleEvent 1, exampleEvent 2]

/-- The inverse, on the two events of the example. -/
def exampleDecode (text : List Char) : Option (Event ℕ) :=
  exampleEvents.find? (exampleEncode · = text)

theorem exampleEncodes {event : Event ℕ} (h : event ∈ exampleEvents) :
    Encodes exampleEncode exampleDecode event where
  object := by
    have hall : ∀ e ∈ exampleEvents, (exampleEncode e).head? = some '\x7b' := by decide +kernel
    exact hall event h
  oneLine := by
    have hall : ∀ e ∈ exampleEvents, (exampleEncode e).all (!isLineBreak ·) = true := by
      decide +kernel
    intro c hc
    simpa using List.all_eq_true.mp (hall event h) c hc
  decoded := by
    have hne : exampleEncode (exampleEvent 1) ≠ exampleEncode (exampleEvent 2) := by
      unfold exampleEncode exampleEvent
      intro heq
      simp only [List.append_cancel_right_eq, List.append_cancel_left_eq] at heq
      exact absurd heq (by decide)
    unfold exampleEvents at h
    unfold exampleDecode exampleEvents
    rcases List.mem_cons.mp h with rfl | h
    · exact List.find?_cons_of_pos (by simp)
    · rw [List.mem_singleton.mp h, List.find?_cons_of_neg (by simpa using hne)]
      exact List.find?_cons_of_pos (by simp)
  torn text hpre hne := by
    have hlength : ∀ e ∈ exampleEvents, ∀ e' ∈ exampleEvents,
        (exampleEncode e).length = (exampleEncode e').length := by
      decide +kernel
    rcases hdecode : exampleDecode text with _ | e'
    · rfl
    · have htext : exampleEncode e' = text := by simpa using List.find?_some hdecode
      have hsame := hlength e' (List.mem_of_find?_eq_some hdecode) event h
      rw [htext] at hsame
      exact absurd (hpre.eq_of_length hsame) hne

/-- The second process dies in the line feed it owes the first one, the third one right
    before the line feed of its own line. -/
def tornHistory : List (LogAction ℕ) :=
  [.start, .killedIn (exampleEvent 1) 7, .start, .killedIn (exampleEvent 1) 1, .start,
    .emit (exampleEvent 1), .killedIn (exampleEvent 2) (exampleEncode (exampleEvent 2)).length]

end Example

theorem event_log_recovery_torn : ∃ s,
    Transition.run (logStep exampleEncode exampleDecode) {} tornHistory = some s ∧
      s.reached = exampleEvents ∧ (EventLog.load exampleDecode s.file).all = exampleEvents := by
  have hrun : ((Transition.run (logStep exampleEncode exampleDecode) {} tornHistory).map
      fun s => s.reached) = some exampleEvents := by
    decide +kernel
  obtain ⟨s, hs, hreached⟩ := Option.map_eq_some_iff.mp hrun
  refine ⟨s, hs, hreached, ?_⟩
  rw [← hreached]
  refine event_log_recovery (fun a ha event hevent => exampleEncodes ?_) hs
  have hall : ∀ a ∈ tornHistory, ∀ event ∈ a.event?, event ∈ exampleEvents := by
    decide +kernel
  exact hall a ha event hevent

end NeuroForge
