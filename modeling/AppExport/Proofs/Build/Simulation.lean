/-
What a simulated build sends, and when. A build with a proper package name announces every stage at
the time at which the stages before it are over, then that it is complete, and it always has a
product, whose instructions are their template with its fields filled in; any other build does
nothing. The listener changes only what it hears itself.
-/
import AppExport.Build.Instructions
import AppExport.Build.Simulation
import AppExport.Proofs.Bundle.Assemble
import AppExport.Proofs.Template.Builtin

namespace AppExport.Build

open Component (Forest)
open Template (Fields filled renderTag_dotted renderTag_helper)

/-! ## Instructions -/

/-- What the instructions have in place of their fields. -/
def instructionsFields (config : Config) (target : Target) : Fields :=
  [("name", config.name), ("platform", target.platform.name),
   ("upper build_type", Text.upper target.variant.name),
   ("prerequisites", "\n".intercalate (Instructions.prerequisites target.platform)),
   ("steps", "\n".intercalate (Instructions.numbered (Instructions.steps target.platform))),
   ("release", "\n".intercalate (Instructions.release target))]

theorem instructions_eq (config : Config) (target : Target) : instructions config target =
    .ok (filled (instructionsFields config target) Template.instructionsSource) := by
  obtain ⟨engine, hengine, -, -, hinstructions⟩ := Template.exists_builtin
  rw [instructions, hengine, ok_bind]
  refine Template.render_eq_filled Template.readsAs_instructions hinstructions ?_
  simp only [Template.instructionsCalls, List.forall_mem_cons]
  exact ⟨renderTag_dotted rfl rfl rfl, renderTag_dotted rfl rfl rfl, renderTag_helper rfl rfl rfl,
    renderTag_dotted rfl rfl rfl, renderTag_dotted rfl rfl rfl, renderTag_dotted rfl rfl rfl,
    fun _ h => by cases h⟩

variable {pacing : Pacing} {draws : Stage → Nat} {patience : Patience}

/-! ## Time -/

theorem Pacing.le_time (pacing : Pacing) (drawn : Nat) : pacing.delay ≤ pacing.time drawn :=
  Nat.le_add_right _ _

theorem Pacing.time_le (pacing : Pacing) (drawn : Nat) :
    pacing.time drawn ≤ pacing.delay + pacing.jitter :=
  Nat.add_le_add_left (Nat.min_le_right _ _) _

theorem Pacing.time_of_le {drawn : Nat} (h : drawn ≤ pacing.jitter) :
    pacing.time drawn = pacing.delay + drawn := by
  rw [Pacing.time, Nat.min_eq_left h]

/-- How long stages take together. -/
def duration (pacing : Pacing) (draws : Stage → Nat) : List Stage → Nat
  | [] => 0
  | stage :: rest => pacing.time (draws stage) + duration pacing draws rest

theorem duration_concat (stages : List Stage) (stage : Stage) :
    duration pacing draws (stages ++ [stage]) =
      duration pacing draws stages + pacing.time (draws stage) := by
  induction stages with
  | nil => simp [duration]
  | cons s rest ih => simp [duration, ih, Nat.add_assoc]

/-- Events, each sent when as many of the stages are over as there are events before it. -/
def timed (pacing : Pacing) (draws : Stage → Nat) (stages : List Stage) (events : List Event) :
    List Sent :=
  events.mapIdx fun i event => ⟨duration pacing draws (stages.take i), event⟩

theorem timed_concat (stages : List Stage) (events : List Event) (event : Event) :
    timed pacing draws stages (events ++ [event]) =
      timed pacing draws stages events ++
        [⟨duration pacing draws (stages.take events.length), event⟩] :=
  List.mapIdx_concat

theorem map_event_timed (pacing : Pacing) (draws : Stage → Nat) (stages : List Stage)
    (events : List Event) :
    (timed pacing draws stages events).map Sent.event = events := by
  refine List.ext_getElem (by simp [timed]) fun i _ _ => ?_
  simp [timed]

theorem time_getElem_timed {stages : List Stage} {events : List Event} {i : Nat}
    (h : i < (timed pacing draws stages events).length) :
    ((timed pacing draws stages events)[i]).time = duration pacing draws (stages.take i) := by
  simp [timed]

/-! ## The listener -/

/-- What a listener hears of the events that are sent. -/
def hears : Patience → List Event → List Event
  | none, events => events
  | some n, events => events.take n

theorem hears_concat (patience : Patience) (events : List Event) (event : Event) :
    hears patience (events ++ [event]) =
      if patience.all ((hears patience events).length < ·) then hears patience events ++ [event]
      else hears patience events := by
  cases patience with
  | none => simp [hears]
  | some n =>
    simp only [hears, Option.all_some, List.length_take, decide_eq_true_eq]
    split
    next h =>
      have hlength : events.length + 1 ≤ n := by omega
      rw [List.take_of_length_le (by simpa using hlength), List.take_of_length_le (by omega)]
    next h =>
      have hlength : n ≤ events.length := by omega
      rw [List.take_append_of_le_length hlength]

/-! ## The stages -/

namespace Progress

/-- A build that has been through the first `done` of its stages. -/
structure Reached (pacing : Pacing) (draws : Stage → Nat) (patience : Patience)
    (stages done : List Stage) (p : Progress) : Prop where
  clock : p.clock = duration pacing draws done
  sent : p.sent = timed pacing draws stages (done.map .progress)
  heard : p.heard = hears patience (done.map .progress)

variable {stages done rest : List Stage} {p : Progress}

theorem reached_start : Reached pacing draws patience stages [] start :=
  ⟨rfl, rfl, by cases patience <;> simp [start, hears]⟩

/-- Whatever is sent next is sent when the stages so far are over. -/
theorem Reached.sent_send (h : Reached pacing draws patience stages done p)
    (hstages : done ++ rest = stages) (event : Event) :
    (p.send patience event).sent = timed pacing draws stages (done.map .progress ++ [event]) := by
  have htake : stages.take done.length = done := by rw [← hstages, List.take_left']; rfl
  rw [timed_concat, List.length_map, htake, ← h.clock, ← h.sent]
  rfl

theorem Reached.heard_send (h : Reached pacing draws patience stages done p) (event : Event) :
    (p.send patience event).heard = hears patience (done.map .progress ++ [event]) := by
  rw [hears_concat, ← h.heard]
  rfl

theorem Reached.stage {stage : Stage} (h : Reached pacing draws patience stages done p)
    (hstages : done ++ stage :: rest = stages) :
    Reached pacing draws patience stages (done ++ [stage])
      ((p.send patience (.progress stage)).wait (pacing.time (draws stage))) where
  clock := by
    rw [duration_concat, ← h.clock]
    rfl
  sent := by
    rw [List.map_append]
    exact h.sent_send hstages _
  heard := by
    rw [List.map_append]
    exact h.heard_send _

theorem Reached.runStages (h : Reached pacing draws patience stages done p)
    (hstages : done ++ rest = stages) :
    Reached pacing draws patience stages stages
      (Build.runStages pacing draws patience rest p) := by
  induction rest generalizing done p with
  | nil =>
    rw [List.append_nil] at hstages
    exact hstages ▸ h
  | cons stage rest ih => exact ih (h.stage hstages) (by simpa using hstages)

end Progress

/-! ## The product -/

theorem exists_product (forest : Forest) (config : Config) (target : Target) :
    ∃ files text, Bundle.assemble forest config = .ok files ∧
      instructions config target = .ok text ∧
      product forest config target = .ok {
        url := "https://example.com/builds/" ++ config.token ++ "." ++ target.platform.suffix
        instructionsName := Instructions.filename config
        instructions := text
        fileCount := files.size } := by
  refine ⟨_, _, Bundle.assemble_eq forest config, instructions_eq config target, ?_⟩
  rw [product, Bundle.assemble_eq, ok_bind, instructions_eq, ok_bind]
  rfl

/-! ## Runs -/

/-- The events of a build that is not turned away. -/
def allEvents : List Event := Stage.all.map .progress ++ [.completed]

theorem run_of_identifier {config : Config}
    (h : Naming.isPackageIdentifier config.packageName = true) (pacing : Pacing)
    (draws : Stage → Nat) (patience : Patience) (forest : Forest) (target : Target) :
    ∃ files text, Bundle.assemble forest config = .ok files ∧
      instructions config target = .ok text ∧
      run pacing draws patience forest config target =
        ⟨⟨duration pacing draws Stage.all, timed pacing draws Stage.all allEvents,
            hears patience allEvents⟩,
          .ok {
            url := "https://example.com/builds/" ++ config.token ++ "." ++ target.platform.suffix
            instructionsName := Instructions.filename config
            instructions := text
            fileCount := files.size }⟩ := by
  obtain ⟨files, text, hfiles, htext, hmade⟩ := exists_product forest config target
  have hreached : Progress.Reached pacing draws patience Stage.all Stage.all
      (runStages pacing draws patience Stage.all .start) :=
    Progress.reached_start.runStages (List.nil_append Stage.all)
  refine ⟨files, text, hfiles, htext, ?_⟩
  rw [run, if_pos h, hmade]
  refine congrArg (Run.mk · _) ?_
  rw [allEvents, ← hreached.clock, ← hreached.sent_send (List.append_nil _),
    ← hreached.heard_send]
  rfl

theorem run_of_not_identifier {config : Config}
    (h : Naming.isPackageIdentifier config.packageName = false) (pacing : Pacing)
    (draws : Stage → Nat) (patience : Patience) (forest : Forest) (target : Target) :
    run pacing draws patience forest config target =
      ⟨.start, .error (.packageName config.packageName)⟩ := by
  rw [run, if_neg (by rw [h]; exact Bool.false_ne_true)]

/-- How much of a build is done at an event, in tenths of a percent. -/
def Event.tenths? : Event → Option Nat
  | progress stage => some stage.tenths
  | completed => none

theorem pairwise_tenths? : (allEvents.filterMap Event.tenths?).Pairwise (· < ·) := by
  decide

theorem pairwise_tenths?_of_prefix {stages : List Stage} {sent : List Sent}
    (h : sent <+: timed pacing draws stages allEvents) :
    (sent.filterMap (·.event.tenths?)).Pairwise (· ≤ ·) := by
  have hmap : (timed pacing draws stages allEvents).filterMap (·.event.tenths?) =
      allEvents.filterMap Event.tenths? := by
    rw [← map_event_timed pacing draws stages allEvents, List.filterMap_map, map_event_timed]
    rfl
  refine List.Pairwise.sublist (h.sublist.filterMap _) ?_
  rw [hmap]
  exact pairwise_tenths?.imp Nat.le_of_lt

end AppExport.Build
