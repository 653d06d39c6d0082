/-
What the sinks of a simulation have been told.

A sink that logs adds the notices that it is told to the log, in their order, and one that broadcasts adds the events to its
channel. A broadcast without subscribers logs that there are none, once for each event. No sink does anything else, so the log
and the channels grow by what has been told and keep all that they had.

Results:
- `run_log`, `run_forM_log`: what is logged comes last in the log;
- **`run_tellSinks`**: the sinks and the log once the sinks have been told;
- **`told_alike`**: of an undeployed record, the log and a channel have been told the same.
-/
import Redeploy.Proofs.Reports
import Redeploy.Simulation.World

namespace Redeploy

theorem Channel.foldl_send {α : Type} (c : Channel α) (ms : List α) :
    ms.foldl Channel.send c = { c with sent := c.sent ++ ms } := by
  induction ms generalizing c with
  | nil => simp
  | cons m ms ih => simp [ih, Channel.send]

namespace Simulation

namespace Sink

variable (events : List DeploymentEvent) (notices : List Notice)

/-- the sink once it has been told of the events -/
def told : Sink → Sink
  | .broadcast channel cursor => .broadcast { channel with sent := channel.sent ++ events } cursor
  | s => s

/-- what it logs when it is told of them -/
def logged : Sink → List Notice
  | .logging => notices
  | .deaf => events.map fun e => .noSubscribers e.kind
  | .silent | .broadcast .. => []

end Sink

/-- the entries of notices in the log of a simulation, which shows no points of time -/
def lines (notices : List Notice) : List Logging.Entry := notices.map (Notice.entry fun _ => "")

/-- the world with more lines in its log; of them, some may have been seen by whoever watches the log -/
def World.withLines (w : World) (notices : List Notice) (seen : Array Sight) : World :=
  { w with journal := w.journal ++ (lines notices).toArray, seen }

theorem withLines_nil (w : World) : w.withLines [] w.seen = w := by
  simp [World.withLines, lines]

theorem withLines_withLines (w : World) (ns ns' : List Notice) (seen seen' : Array Sight) :
    (w.withLines ns seen).withLines ns' seen' = w.withLines (ns ++ ns') seen' := by
  simp [World.withLines, lines]

/-- what is logged comes last in the log -/
theorem run_log (n : Notice) (w : World) : ∃ seen, (log n).run w = ((), w.withLines [n] seen) := by
  have hjournal : w.journal.push (n.entry fun _ => "") = w.journal ++ (lines [n]).toArray := by simp [lines]
  by_cases hwatched : w.logs.any fun l => l.admits (n.entry fun _ => "").level
  · refine ⟨w.seen.push (.logged (n.entry fun _ => "")), ?_⟩
    simp only [log, see, StateT.run_bind, StateT.run_get, StateT.run_modify, pure_bind, hwatched, if_true, hjournal]
    rfl
  · refine ⟨w.seen, ?_⟩
    simp only [log, StateT.run_bind, StateT.run_get, StateT.run_modify, pure_bind, hwatched, hjournal]
    rfl

theorem run_forM_log (ns : List Notice) (w : World) : ∃ seen, (ns.forM log).run w = ((), w.withLines ns seen) := by
  induction ns generalizing w with
  | nil =>
    refine ⟨w.seen, ?_⟩
    rw [withLines_nil]
    rfl
  | cons n ns ih =>
    obtain ⟨seen, hfirst⟩ := run_log n w
    obtain ⟨seen', hrest⟩ := ih (w.withLines [n] seen)
    refine ⟨seen', ?_⟩
    rw [List.forM_eq_forM, List.forM_cons, StateT.run_bind, hfirst]
    exact hrest.trans (by rw [withLines_withLines]; rfl)

theorem run_tell (events : List DeploymentEvent) (notices : List Notice) (s : Sink) (w : World) :
    ∃ seen, (s.tell events notices).run w = (s.told events, w.withLines (s.logged events notices) seen) := by
  cases s with
  | logging =>
    obtain ⟨seen, hlog⟩ := run_forM_log notices w
    refine ⟨seen, ?_⟩
    rw [Sink.tell, StateT.run_bind, hlog]
    rfl
  | silent =>
    refine ⟨w.seen, ?_⟩
    rw [Sink.logged, withLines_nil]
    rfl
  | deaf =>
    obtain ⟨seen, hlog⟩ := run_forM_log (events.map fun e => .noSubscribers e.kind) w
    refine ⟨seen, ?_⟩
    rw [List.forM_eq_forM, List.forM_map] at hlog
    rw [Sink.tell, StateT.run_bind, List.forM_eq_forM, hlog]
    rfl
  | broadcast channel cursor =>
    refine ⟨w.seen, ?_⟩
    rw [Sink.tell, Channel.foldl_send, Sink.logged, withLines_nil]
    rfl

/-- **the sinks and the log** once the sinks have been told, one after the other -/
theorem run_tellSinks (events : List DeploymentEvent) (notices : List Notice) (w : World) :
    ∃ seen, (tellSinks events notices).run w =
      ((), { w with
        sinks := w.sinks.map (Sink.told events)
        journal := w.journal ++ (lines (w.sinks.flatMap (Sink.logged events notices))).toArray
        seen }) := by
  have hall (sinks : List Sink) (w : World) : ∃ seen, (sinks.mapM (Sink.tell events notices)).run w =
      (sinks.map (Sink.told events), w.withLines (sinks.flatMap (Sink.logged events notices)) seen) := by
    induction sinks generalizing w with
    | nil =>
      refine ⟨w.seen, ?_⟩
      rw [List.flatMap_nil, withLines_nil]
      rfl
    | cons s sinks ih =>
      obtain ⟨seen, hfirst⟩ := run_tell events notices s w
      obtain ⟨seen', hrest⟩ := ih (w.withLines (s.logged events notices) seen)
      refine ⟨seen', ?_⟩
      rw [withLines_withLines] at hrest
      rw [List.mapM_cons, StateT.run_bind, hfirst]
      show ((fun t => s.told events :: t) <$> sinks.mapM (Sink.tell events notices)).run _ = _
      rw [StateT.run_map, hrest]
      rfl
  obtain ⟨seen, hsinks⟩ := hall w.sinks w
  refine ⟨seen, ?_⟩
  rw [tellSinks, StateT.run_bind, StateT.run_get, pure_bind, StateT.run_bind, hsinks]
  rfl

/-- **of an undeployed record the log and a channel are told the same**: whatever the sinks, the log has grown by the lines of
those that log, in order, and each channel by the events. The lines that one of them adds are as many as these events, and
agree with them one by one. -/
theorem told_alike (r : Record) (departed : Option MemberId) (now : Timestamp) (w : World) :
    let events := DeploymentEvent.ofUndeployed r departed now
    let notices := Notice.ofUndeployed r departed
    let w' := ((tellSinks events notices).run w).2
    w'.journal.toList = w.journal.toList ++ w.sinks.flatMap (fun s => lines (s.logged events notices)) ∧
      w'.sinks.length = w.sinks.length ∧
      (∀ (k : Nat) channel cursor, w.sinks[k]? = some (Sink.broadcast channel cursor) →
        w'.sinks[k]? = some (Sink.broadcast { channel with sent := channel.sent ++ events } cursor)) ∧
      List.Forall₂ (DeploymentEvent.Agrees fun _ => "") (lines (Sink.logging.logged events notices)) events := by
  intro events notices w'
  obtain ⟨seen, htold⟩ := run_tellSinks events notices w
  have hsinks : w'.sinks = w.sinks.map (Sink.told events) := congrArg (fun e => e.2.sinks) htold
  have hjournal : w'.journal = w.journal ++ (lines (w.sinks.flatMap (Sink.logged events notices))).toArray :=
    congrArg (fun e => e.2.journal) htold
  refine ⟨?_, ?_, fun k channel cursor hk => ?_, DeploymentEvent.agrees r departed now _⟩
  · simp [hjournal, lines, List.map_flatMap]
  · rw [hsinks, List.length_map]
  · rw [hsinks, List.getElem?_map, hk]
    rfl

end Simulation

end Redeploy
