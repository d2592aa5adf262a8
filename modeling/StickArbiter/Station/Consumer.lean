import StickArbiter.Bus.Basic
import StickArbiter.Journal.Basic

/-!
# The consumer of the arbiter's output

The consumer takes setpoints and commands from the bus as they are there, one at a time and in any
order between the two, and records them if there is a journal.
-/

namespace StickArbiter

structure Desk where
  bus : Bus
  journal : Option Journal := none
  /-- The path of the journal's folder. -/
  folder : String := ""
  log : List LogLine := []

/-- What the consumer takes next. -/
inductive Turn
  | setpoint
  | command
deriving DecidableEq, Repr

namespace Desk

def origin : String := "manual_control"

def enter (d : Desk) (now : Moment) (r : Record) : Desk :=
  match d.journal with
  | none => d
  | some j =>
    let o := j.record now r
    let failed := o.fault.toList.map fun f =>
      ⟨.warn, origin, "Failed to record " ++ r.kind ++ ": I/O error: " ++ f.message⟩
    { d with
      journal := some o.journal
      log := d.log ++ o.log.map (JournalEvent.line d.folder) ++ failed }

/-- What is logged of a command. -/
def received (c : Command) : LogLine :=
  ⟨.info, origin, "Vehicle command " ++ toString c.kind.id ++ " ("
    ++ (if c.isArm then "arm" else "disarm") ++ ") received"⟩

def ready (d : Desk) : Turn → Bool
  | .setpoint => d.bus.setpoints.isFresh
  | .command => !d.bus.commands.isEmpty

/-- The desk after a turn. -/
def take (d : Desk) (now : Moment) : Turn → Desk
  | .setpoint =>
    if d.bus.setpoints.isFresh then
      { d with bus := { d.bus with setpoints := d.bus.setpoints.pass } }.enter now
        (.setpoint d.bus.setpoints.value)
    else d
  | .command =>
    match d.bus.commands with
    | [] => d
    | c :: rest =>
      { d with bus := { d.bus with commands := rest }, log := d.log ++ [received c] }.enter now
        (.command c)

/-- The desk once it has taken all commands and then the setpoint. -/
def settle (d : Desk) (now : Moment) : Desk :=
  (d.bus.commands.foldl (fun d _ => d.take now .command) d).take now .setpoint

def receive (d : Desk) (now : Moment) (calls : List Call) : Desk :=
  { d with bus := calls.foldl Bus.carry d.bus }.settle now

end Desk

end StickArbiter
