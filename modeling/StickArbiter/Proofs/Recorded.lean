import StickArbiter.Proofs.Requests
import StickArbiter.Proofs.Retention
import StickArbiter.Station.Consumer

/-!
# What the consumer records

Commands wait in a queue, so all are recorded in order. Of the setpoints only the last one waits, so
some are not, and none is recorded twice.
-/

namespace StickArbiter

namespace Record

def command? : Record → Option Command
  | setpoint _ => none
  | command c => some c

def setpoint? : Record → Option Setpoint
  | setpoint sp => some sp
  | command _ => none

end Record

/-- The records that a journal wrote without a fault. -/
def Journal.recorded (j : Journal) (calls : List (Moment × Record)) : List Record :=
  ((j.steps calls).filter fun s => (s.1.record s.2.1 s.2.2).fault = none).map (·.2.2)

theorem Journal.recorded_of_succeeds {j : Journal} {calls : List (Moment × Record)}
    (h : j.Succeeds calls) : j.recorded calls = calls.map (·.2) := by
  have hall : (j.steps calls).filter (fun s => (s.1.record s.2.1 s.2.2).fault = none) =
      j.steps calls := by
    rw [List.filter_eq_self]
    exact fun s hs => decide_eq_true (h s hs)
  have hcalls : (j.steps calls).map (·.2) = calls := steps_calls
  unfold recorded
  rw [hall]
  refine Eq.trans ?_ (congrArg (List.map (·.2)) hcalls)
  rw [List.map_map]
  rfl

/-- The files hold the records written last, and all of them if there is room. -/
theorem Journal.exists_lines_recorded (folder : Folder) (recordsPerFile filesKept : Nat)
    (calls : List (Moment × Record)) (hempty : Journal.filesIn folder = [])
    (h : (create folder recordsPerFile filesKept).Regular calls) :
    let start := create folder recordsPerFile filesKept
    let files := (start.after calls).folder
    ∃ lost, (Journal.filesIn files).flatMap files.linesOf =
        (calls.drop lost).map (fun c => c.2.line c.1.text) ∧
      (start.recorded calls).drop lost = (calls.drop lost).map (·.2) ∧
      (calls.length ≤ max 1 filesKept * max 1 recordsPerFile → lost = 0) := by
  intro start files
  have hrecorded : ∀ lost, (start.recorded calls).drop lost = (calls.drop lost).map (·.2) := by
    intro lost
    rw [Journal.recorded_of_succeeds h.succeeds, List.map_drop]
  by_cases hcalls : calls = []
  · subst hcalls
    have hnone : Journal.filesIn files = [] := hempty
    exact ⟨0, by rw [hnone]; rfl, hrecorded 0, fun _ => rfl⟩
  · obtain ⟨vs, htells⟩ := exists_tells (j := start)
      (.start hempty (entries_of_succeeds hcalls h.succeeds) recordsPerFile filesKept)
      (Nat.le_max_left 1 filesKept) (Nat.le_max_left 1 recordsPerFile) h
    obtain ⟨ws, v, rfl⟩ := htells.exists_concat hcalls
    obtain ⟨hnumber, -⟩ := htells.sizes hcalls
    refine ⟨(ws.length + 1 - start.filesKept) * start.recordsPerFile, ?_, hrecorded _,
      fun hroom => ?_⟩
    · rw [htells.flatMap_linesOf hcalls (Nat.le_max_left 1 filesKept), List.map_drop]
      rfl
    · have hpositive : 0 < start.recordsPerFile := Nat.le_max_left 1 recordsPerFile
      have hroom' : calls.length ≤ start.filesKept * start.recordsPerFile := hroom
      have hfew : ws.length + 1 < start.filesKept + 1 := by
        rw [hnumber, Nat.div_lt_iff_lt_mul hpositive, Nat.add_mul]
        omega
      rw [Nat.sub_eq_zero_of_le (by omega), Nat.zero_mul]

/-! ## One channel -/

namespace Latest

variable {α : Type} {c : Latest α} {taken sent : List α}

/-- What waits on a channel was sent last and has not been taken. -/
structure Accounts (c : Latest α) (taken sent : List α) : Prop where
  reader : c.hasReader = true
  passed : c.passed ≤ c.sent
  sublist : taken.Sublist (if c.isFresh then sent.dropLast else sent)
  waiting : c.isFresh = true → sent.getLast? = some c.value
  settled : c.isFresh = false → taken.getLast? = sent.getLast?

theorem Accounts.taken_sublist (h : c.Accounts taken sent) : taken.Sublist sent := by
  have hsublist := h.sublist
  split at hsublist
  · exact hsublist.trans (List.dropLast_sublist _)
  · exact hsublist

theorem accounts_holding (a : α) : (holding a).Accounts [] [] :=
  ⟨rfl, Nat.le_refl 0, List.Sublist.refl _, nofun, fun _ => rfl⟩

theorem Accounts.send (h : c.Accounts taken sent) (a : α) :
    (c.send a).Accounts taken (sent ++ [a]) := by
  have hfresh : ({ c with value := a, sent := c.sent + 1 } : Latest α).isFresh = true :=
    decide_eq_true (Nat.lt_succ_of_le h.passed)
  unfold Latest.send
  rw [if_pos h.reader]
  refine ⟨h.reader, Nat.le_succ_of_le h.passed, ?_, fun _ => List.getLast?_concat, ?_⟩
  · rw [if_pos hfresh, List.dropLast_concat]
    exact h.taken_sublist
  · intro hstale
    cases hfresh.symm.trans hstale

theorem Accounts.pass (h : c.Accounts taken sent) (hfresh : c.isFresh = true) :
    c.pass.Accounts (taken ++ [c.value]) sent := by
  have hstale : c.pass.isFresh = false := by simp [isFresh, Latest.pass]
  have hlast := h.waiting hfresh
  have hsublist := h.sublist
  rw [if_pos hfresh] at hsublist
  refine ⟨h.reader, Nat.le_refl _, ?_, ?_, fun _ => List.getLast?_concat.trans hlast.symm⟩
  · -- The last value sent is the one that waited.
    rw [if_neg (by simp [hstale]), ← List.dropLast_append_getLast? _ hlast]
    exact hsublist.append (List.Sublist.refl _)
  · intro hfresh'
    cases hstale.symm.trans hfresh'

end Latest

/-! ## One turn -/

namespace Bus

def takes? (b : Bus) : Turn → Option Record
  | .setpoint => if b.setpoints.isFresh then some (.setpoint b.setpoints.value) else none
  | .command => b.commands.head?.map .command

def without (b : Bus) : Turn → Bus
  | .setpoint => if b.setpoints.isFresh then { b with setpoints := b.setpoints.pass } else b
  | .command => { b with commands := b.commands.tail }

/-- The commands sent are those recorded and those that wait. -/
structure Accounts (b : Bus) (records : List Record) (calls : List Call) : Prop where
  consumer : b.hasConsumer = true
  commands : records.filterMap Record.command? ++ b.commands = calls.filterMap Call.command?
  setpoints : b.setpoints.Accounts (records.filterMap Record.setpoint?)
    (calls.filterMap Call.setpoint?)

variable {b : Bus} {records : List Record} {calls : List Call}

theorem accounts_ofCount (count : Nat) (p : Parameters) : (ofCount count p).Accounts [] [] :=
  ⟨rfl, rfl, Latest.accounts_holding _⟩

theorem Accounts.carry (h : b.Accounts records calls) (c : Call) :
    (b.carry c).Accounts records (calls ++ [c]) := by
  cases c with
  | command c =>
    dsimp only [Bus.carry]
    rw [if_pos h.consumer]
    refine ⟨h.consumer, ?_, ?_⟩
    · rw [List.filterMap_append, ← h.commands, List.append_assoc]
      rfl
    · rw [List.filterMap_append, List.filterMap_cons_none rfl, List.filterMap_nil, List.append_nil]
      exact h.setpoints
  | publish sp =>
    refine ⟨h.consumer, ?_, ?_⟩
    · rw [List.filterMap_append, List.filterMap_cons_none rfl, List.filterMap_nil, List.append_nil]
      exact h.commands
    · rw [List.filterMap_append]
      exact h.setpoints.send sp

theorem Accounts.without (h : b.Accounts records calls) (t : Turn) :
    (b.without t).Accounts (records ++ (b.takes? t).toList) calls := by
  cases t with
  | setpoint =>
    cases hfresh : b.setpoints.isFresh with
    | false => simpa [Bus.without, takes?, hfresh] using h
    | true =>
      simp only [Bus.without, takes?, hfresh, if_true, Option.toList_some]
      refine ⟨h.consumer, ?_, ?_⟩
      · rw [List.filterMap_append, List.filterMap_cons_none rfl, List.filterMap_nil,
          List.append_nil]
        exact h.commands
      · rw [List.filterMap_append]
        exact h.setpoints.pass hfresh
  | command =>
    have hqueue := h.commands
    cases hcommands : b.commands with
    | nil =>
      rw [hcommands] at hqueue
      simp only [Bus.without, takes?, hcommands, List.head?_nil, Option.map_none, List.tail_nil,
        Option.toList_none, List.append_nil]
      exact ⟨h.consumer, hqueue, h.setpoints⟩
    | cons c rest =>
      rw [hcommands] at hqueue
      simp only [Bus.without, takes?, hcommands, List.head?_cons, Option.map_some, List.tail_cons,
        Option.toList_some]
      refine ⟨h.consumer, ?_, ?_⟩
      · rw [← hqueue, List.filterMap_append, List.append_assoc]
        rfl
      · rw [List.filterMap_append, List.filterMap_cons_none rfl, List.filterMap_nil,
          List.append_nil]
        exact h.setpoints

end Bus

/-! ## Runs -/

namespace Desk

inductive Event
  | call (c : Call)
  | turn (now : Moment) (t : Turn)

def Event.call? : Event → Option Call
  | call c => some c
  | turn _ _ => none

def step (d : Desk) : Event → Desk
  | .call c => { d with bus := d.bus.carry c }
  | .turn now t => d.take now t

def after (d : Desk) (events : List Event) : Desk := events.foldl step d

/-- What the turns of a run hand to the journal, with the times. -/
def handed : Desk → List Event → List (Moment × Record)
  | _, [] => []
  | d, .call c :: events => (d.step (.call c)).handed events
  | d, .turn now t :: events =>
    (d.bus.takes? t).toList.map (now, ·) ++ (d.step (.turn now t)).handed events

variable {d : Desk} {events : List Event}

theorem take_eq (d : Desk) (now : Moment) (t : Turn) :
    (d.take now t).bus = d.bus.without t ∧
      (d.take now t).journal =
        d.journal.map (·.after ((d.bus.takes? t).toList.map (now, ·))) := by
  cases t with
  | setpoint =>
    cases hfresh : d.bus.setpoints.isFresh <;> cases hjournal : d.journal <;>
      simp [take, enter, Bus.without, Bus.takes?, Journal.after, hfresh, hjournal]
  | command =>
    obtain ⟨bus, journal, folder, log⟩ := d
    obtain ⟨inputs, switches, parameters, setpoints, commands, hasConsumer⟩ := bus
    cases commands <;> cases journal <;> simp [take, enter, Bus.without, Bus.takes?, Journal.after]

theorem journal_after (d : Desk) (events : List Event) :
    (d.after events).journal = d.journal.map (·.after (d.handed events)) := by
  induction events generalizing d with
  | nil => cases hjournal : d.journal <;> simp [after, handed, Journal.after, hjournal]
  | cons e events ih =>
    change ((d.step e).after events).journal = _
    rw [ih]
    cases e with
    | call c => rfl
    | turn now t =>
      rw [step, (d.take_eq now t).2, Option.map_map, handed]
      congr 1
      funext j
      simp [Journal.after, step]

theorem accounts_after {records : List Record} {calls : List Call}
    (h : d.bus.Accounts records calls) (events : List Event) :
    (d.after events).bus.Accounts (records ++ (d.handed events).map (·.2))
      (calls ++ events.filterMap Event.call?) := by
  induction events generalizing d records calls with
  | nil => simpa [after, handed] using h
  | cons e events ih =>
    cases e with
    | call c =>
      have hrest := ih (d := d.step (.call c)) (h.carry c)
      rw [List.append_assoc] at hrest
      exact hrest
    | turn now t =>
      have hturn := h.without t
      rw [← (d.take_eq now t).1] at hturn
      have hrest := ih (d := d.step (.turn now t)) hturn
      rw [List.append_assoc] at hrest
      have hhanded : (d.handed (.turn now t :: events)).map (·.2) = (d.bus.takes? t).toList ++
          ((d.step (.turn now t)).handed events).map (·.2) := by
        simp [handed]
      rw [hhanded, List.filterMap_cons_none rfl]
      exact hrest

/-- The files hold what the consumer recorded last, as long as they are opened in the order of their
names. -/
theorem exists_lines_after (d : Desk) (events : List Event) (folder : Folder)
    (recordsPerFile filesKept : Nat) (hempty : Journal.filesIn folder = [])
    (hjournal : d.journal = some (.create folder recordsPerFile filesKept))
    (h : (Journal.create folder recordsPerFile filesKept).Regular (d.handed events)) :
    let handed := d.handed events
    ∃ j lost, (d.after events).journal = some j ∧
      (Journal.filesIn j.folder).flatMap j.folder.linesOf =
        (handed.drop lost).map (fun c => c.2.line c.1.text) ∧
      ((Journal.create folder recordsPerFile filesKept).recorded handed).drop lost =
        (handed.drop lost).map (·.2) ∧
      (handed.length ≤ max 1 filesKept * max 1 recordsPerFile → lost = 0) := by
  intro handed
  obtain ⟨lost, hlines⟩ :=
    Journal.exists_lines_recorded folder recordsPerFile filesKept handed hempty h
  refine ⟨_, lost, ?_, hlines⟩
  rw [journal_after, hjournal]
  rfl

/-- The commands recorded are the first ones sent, and the setpoints recorded some of those
published. When no turn is ready, all commands and the last setpoint are recorded. -/
theorem recorded_of_calls (count : Nat) (p : Parameters) (j : Journal) (folder : String)
    (events : List Event) :
    let start : Desk := { bus := .ofCount count p, journal := some j, folder := folder }
    let d := start.after events
    let handed := start.handed events
    let calls := events.filterMap Event.call?
    j.Succeeds handed →
    d.journal = some (j.after handed) ∧
    (j.recorded handed).filterMap Record.command? <+: calls.filterMap Call.command? ∧
    ((j.recorded handed).filterMap Record.setpoint?).Sublist (calls.filterMap Call.setpoint?) ∧
    ((∀ t, d.ready t = false) →
      (j.recorded handed).filterMap Record.command? = calls.filterMap Call.command? ∧
      ((j.recorded handed).filterMap Record.setpoint?).getLast? =
        (calls.filterMap Call.setpoint?).getLast?) := by
  intro start d handed calls hsucceeds
  have haccounts : d.bus.Accounts (handed.map (·.2)) calls :=
    accounts_after (d := start) (Bus.accounts_ofCount count p) events
  rw [Journal.recorded_of_succeeds hsucceeds]
  refine ⟨start.journal_after events, ⟨_, haccounts.commands⟩,
    haccounts.setpoints.taken_sublist, fun hready => ?_⟩
  have hqueue : d.bus.commands = [] := by simpa [ready] using hready .command
  have hcommands := haccounts.commands
  rw [hqueue, List.append_nil] at hcommands
  exact ⟨hcommands, haccounts.setpoints.settled (hready .setpoint)⟩

def overtaken : List Event :=
  let early := Moment.ofMillis 1000
  let late := Moment.ofMillis 2000
  [.call (.command (.request true .zero)), .call (.publish { valid := true }), .turn early .command,
    .call (.command (.request false .zero)), .call (.publish .invalid), .turn late .setpoint,
    .turn late .setpoint, .turn late .command]

theorem recorded_overtaken :
    let start : Desk := { bus := .ofCount 2 {}, journal := some (.create .empty 2 1) }
    let handed := start.handed overtaken
    let records := (Journal.create .empty 2 1).recorded handed
    (∀ t, (start.after overtaken).ready t = false) ∧
    records.filterMap Record.command? = [.request true .zero, .request false .zero] ∧
    (records.filterMap Record.setpoint?).getLast? = some .invalid ∧
    (records.filterMap Record.setpoint?).Sublist [{ valid := true }, .invalid] := by
  intro start handed records
  have hsucceeds : (Journal.create .empty 2 1).Succeeds handed := by
    unfold Journal.Succeeds
    decide +kernel
  obtain ⟨-, -, hsublist, hsettled⟩ :=
    recorded_of_calls 2 {} (.create .empty 2 1) "" overtaken hsucceeds
  have hready : ∀ t, (start.after overtaken).ready t = false := by
    intro t
    cases t <;> decide +kernel
  obtain ⟨hcommands, hlast⟩ := hsettled hready
  exact ⟨hready, hcommands, hlast, hsublist⟩

end Desk

end StickArbiter
