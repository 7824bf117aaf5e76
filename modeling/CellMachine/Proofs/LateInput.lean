import CellMachine.Proofs.Confluence
import CellMachine.Proofs.Reachable
import CellMachine.Proofs.Twins

/-!
# Input that arrives late

A machine may be stepped while its input has not arrived. `Rig.drive` follows such a
history, any mixture of arrivals on the input of one machine and steps of that machine,
and what counts in the end is only which values have arrived: a run afterwards ends
where it ends if all values are there from the start.

The reason is that a step and an arrival commute (`Rig.step_write`), unless the step
finds nothing to read. Such a step only notes that the machine waits, and no run can
tell (`Rig.runsTo_step_writeAll`). This needs a machine that does not read what it
writes: on a single pipe the order of an arrival and of an output would be seen.

The same two cases show that more input can only add to the output
(`Rig.outputs_steps_writeAll`).
-/

set_option autoImplicit false

namespace CellMachine

theorem Machine.step_await {m : Machine} (h : ¬ m.Stopped) (hk : m.status ≠ .unknown)
    (t : PipeTable) : m.await.step t = m.step t := by
  rw [← step_wake m.await, wake_await m h hk, step_wake]

namespace Rig

/-! ## Arrivals -/

/-- The rig after a value has arrived on the input of machine `k`. -/
def write (rig : Rig) (k : Nat) (v : Cell) : Rig :=
  match rig.machine? k with
  | none => rig
  | some m => { rig with pipes := rig.pipes.push m.input v }

/-- The rig after the values have arrived one after another. -/
def writeAll (rig : Rig) (k : Nat) (values : List Cell) : Rig :=
  values.foldl (fun rig v => rig.write k v) rig

/-- What can happen to a machine from outside. -/
inductive Event where
  | arrival (v : Cell)
  | step
deriving DecidableEq, Inhabited

/-- The values that arrive, in their order. -/
def arrivals : List Event → List Cell
  | [] => []
  | .arrival v :: events => v :: arrivals events
  | .step :: events => arrivals events

/-- The rig after the events at machine `k`, in their order. -/
def drive (rig : Rig) (k : Nat) : List Event → Rig
  | [] => rig
  | .arrival v :: events => (rig.write k v).drive k events
  | .step :: events => (rig.step k).drive k events

/-- All values that machine `k` has sent, and whatever was in its output pipe before. -/
def outputs (rig : Rig) (k : Nat) : List Cell :=
  match rig.machine? k with
  | none => []
  | some m => (rig.pipes.get m.output).history.toList

/-- The run of machine `k` ends, and it ends like this. -/
def RunsTo (rig : Rig) (k : Nat) (final : Rig) : Prop :=
  ∃ fuel, rig.run fuel k = some final

/-- Machine `k` is there and sound, and does not read what it writes. -/
structure Open (rig : Rig) (k : Nat) (m : Machine) : Prop where
  there : rig.machine? k = some m
  sound : m.Sound
  apart : m.input ≠ m.output

section Arrivals

variable {rig : Rig} {k : Nat} {m : Machine}

theorem write_of_machine? (hm : rig.machine? k = some m) (v : Cell) :
    rig.write k v = { rig with pipes := rig.pipes.push m.input v } := by
  simp only [write, hm]

@[simp] theorem machine?_write (rig : Rig) (k j : Nat) (v : Cell) :
    (rig.write k v).machine? j = rig.machine? j := by
  unfold write
  split
  · rfl
  · rfl

theorem writeAll_append (rig : Rig) (k : Nat) (values values' : List Cell) :
    rig.writeAll k (values ++ values') = (rig.writeAll k values).writeAll k values' :=
  List.foldl_append

/-- Arrivals go to one pipe and change nothing else. -/
theorem writeAll_of_machine? (hm : rig.machine? k = some m) (values : List Cell) :
    rig.writeAll k values =
      { rig with pipes := values.foldl (fun t v => t.push m.input v) rig.pipes } := by
  induction values generalizing rig with
  | nil => rfl
  | cons v rest ih =>
    show (rig.write k v).writeAll k rest = _
    rw [write_of_machine? hm]
    exact ih hm

theorem Open.write (h : rig.Open k m) (v : Cell) : (rig.write k v).Open k m :=
  ⟨by rw [machine?_write, h.there], h.sound, h.apart⟩

theorem Open.writeAll (h : rig.Open k m) (values : List Cell) : (rig.writeAll k values).Open k m := by
  rw [writeAll_of_machine? h.there]
  exact ⟨h.there, h.sound, h.apart⟩

theorem Open.step (h : rig.Open k m) : (rig.step k).Open k (m.step rig.pipes).1 := by
  refine ⟨machine?_step_self h.there, ?_, ?_⟩
  · rw [Machine.step_eq]
    exact h.sound.react _
  · rw [(m.step_wiring rig.pipes).1, (m.step_wiring rig.pipes).2]
    exact h.apart

end Arrivals

/-! ## Steps and arrivals -/

section Commuting

variable {rig : Rig} {k : Nat} {m : Machine}

theorem Ready.push {t : PipeTable} (h : Ready m t) (i : Nat) (v : Cell) : Ready m (t.push i v) := by
  intro hi hnil
  have hhead := PipeTable.head?_queue_feed (h hi) i (some v)
  have hnone : (((t.feed i (some v)).get m.input).queue).head? = none := by
    rw [show t.feed i (some v) = t.push i v from rfl, hnil]
    rfl
  rw [hnone] at hhead
  exact h hi (List.head?_eq_none_iff.1 hhead.symm)

/-- What arrives on another pipe, or behind the head of the queue, is not seen by the next
step. -/
theorem react_push {t : PipeTable} {i : Nat} (h : m.input = i → Ready m t) (v : Cell) :
    m.react (((t.push i v).get m.input).queue.head?) = m.react (t.get m.input).queue.head? := by
  by_cases hin : m.input = i
  · by_cases hi : m.AtInput
    · exact congrArg m.react (PipeTable.head?_queue_feed (h hin hi) i (some v))
    · exact Machine.react_of_not_atInput hi _ _
  · have hget : (t.push i v).get m.input = t.get m.input :=
      PipeTable.get_feed_of_ne (Ne.symm hin) t (some v)
    rw [hget]

theorem step_push {t : PipeTable} {i : Nat} (hout : m.output ≠ i) (h : m.input = i → Ready m t)
    (v : Cell) : m.step (t.push i v) = ((m.step t).1, (m.step t).2.push i v) := by
  rw [Machine.step_eq, Machine.step_eq, react_push h]
  congr 1
  -- the table with an arrival, as traffic of a machine
  show (((t.feed i (some v)).draw m.input _).feed m.output _) =
    ((t.draw m.input _).feed m.output _).feed i (some v)
  rw [PipeTable.feed_draw_comm queue_ne_nil_of_takes, PipeTable.feed_comm hout.symm]

/-- A step commutes with an arrival on a pipe that its machine does not write to, unless it
finds nothing to read there. -/
theorem step_write {j : Nat} {m' : Machine} (hm : rig.machine? k = some m)
    (hm' : rig.machine? j = some m') (hout : m'.output ≠ m.input)
    (hr : m'.input = m.input → Ready m' rig.pipes) (v : Cell) :
    (rig.write k v).step j = (rig.step j).write k v := by
  have hj : (rig.write k v).machine? j = some m' := by rw [machine?_write, hm']
  obtain ⟨mk, hmk, hin, -⟩ := exists_machine?_step hm j
  rw [step_of_machine? hj, write_of_machine? hmk, hin, write_of_machine? hm,
    step_push hout hr, step_of_machine? hm']

theorem step_writeAll {j : Nat} {m' : Machine} (hm : rig.machine? k = some m)
    (hm' : rig.machine? j = some m') (hout : m'.output ≠ m.input)
    (hr : m'.input = m.input → Ready m' rig.pipes) (values : List Cell) :
    (rig.writeAll k values).step j = (rig.step j).writeAll k values := by
  induction values generalizing rig with
  | nil => rfl
  | cons v rest ih =>
    show ((rig.write k v).writeAll k rest).step j = ((rig.step j).write k v).writeAll k rest
    have hr' : m'.input = m.input → Ready m' (rig.write k v).pipes := by
      intro hin
      rw [write_of_machine? hm]
      exact (hr hin).push m.input v
    rw [ih (by rw [machine?_write, hm]) (by rw [machine?_write, hm']) hr', step_write hm hm' hout hr]

theorem Open.step_writeAll (h : rig.Open k m) (hr : Ready m rig.pipes) (values : List Cell) :
    (rig.writeAll k values).step k = (rig.step k).writeAll k values :=
  Rig.step_writeAll h.there h.there h.apart.symm (fun _ => hr) values

/-- A step that finds nothing to read changes the status, and nothing else. -/
theorem step_of_not_ready {t : PipeTable} (hr : ¬ Ready m t) :
    m.AtInput ∧ m.step t = (m.await, t) := by
  obtain ⟨hi, hq⟩ : m.AtInput ∧ (t.get m.input).queue = [] := by
    simpa [Ready] using hr
  exact ⟨hi, Machine.step_of_atInput hi hq⟩

end Commuting

/-! ## Runs -/

section Runs

variable {rig final : Rig} {k : Nat} {m : Machine}

/-- A machine that has come to an end stays there. -/
theorem runsTo_iff_of_ended (hm : rig.machine? k = some m)
    (h : m.Rests rig.pipes ∨ m.status = .faulted) : rig.RunsTo k final ↔ final = rig := by
  have hrun : ∀ fuel, rig.run (fuel + 1) k = some rig := by
    intro fuel
    rcases h with hrest | hf
    · exact RestsAt.run_eq ⟨m, hm, hrest⟩ fuel
    · have hstep : m.step rig.pipes = (m, rig.pipes) := Machine.step_of_stopped (Or.inr hf) _
      rw [run_succ hm, hstep, if_neg (by simp [hf]), if_neg (by simp [hf]), step_eq_self hm hstep]
  constructor
  · rintro ⟨fuel, h'⟩
    have hmore := run_mono h' (Nat.le_succ fuel)
    rw [hrun] at hmore
    exact (Option.some.inj hmore).symm
  · rintro rfl
    exact ⟨1, hrun 0⟩

/-- A run ends where it ends from the next state. -/
theorem runsTo_step_iff (h : rig.Open k m) : (rig.step k).RunsTo k final ↔ rig.RunsTo k final := by
  by_cases hh : m.status = .halted
  · rw [RestsAt.step_eq ⟨m, h.there, Or.inl hh⟩]
  · by_cases hr : (m.step rig.pipes).1.status = .running
    · have hrun : ∀ fuel, rig.run (fuel + 1) k = (rig.step k).run fuel k := by
        intro fuel
        rw [run_succ h.there, if_neg hh, if_pos hr]
      constructor
      · rintro ⟨fuel, h'⟩
        exact ⟨fuel + 1, by rw [hrun, h']⟩
      · rintro ⟨fuel, h'⟩
        refine ⟨fuel, ?_⟩
        rw [← hrun]
        exact run_mono h' (Nat.le_succ fuel)
    · -- the step was the last one
      have hrun : rig.run 1 k = some (rig.step k) := by
        rw [run_succ h.there, if_neg hh, if_neg hr]
      obtain ⟨m', hm', -, hend⟩ := rests_or_faulted_of_run h.there h.sound hrun
      rw [runsTo_iff_of_ended hm' hend]
      constructor
      · rintro rfl
        exact ⟨1, hrun⟩
      · rintro ⟨fuel, h'⟩
        have hmore := run_mono h' (Nat.le_add_right fuel 1)
        rw [run_mono hrun (Nat.le_add_left 1 fuel)] at hmore
        exact (Option.some.inj hmore).symm

/-- A step makes no difference to how a run ends, even if more arrives after it. -/
theorem runsTo_step_writeAll (h : rig.Open k m) (values : List Cell) :
    ((rig.step k).writeAll k values).RunsTo k final ↔ (rig.writeAll k values).RunsTo k final := by
  by_cases hr : Ready m rig.pipes
  · rw [← h.step_writeAll hr]
    exact runsTo_step_iff (h.writeAll values)
  · -- the machine waits on one side and not on the other, but the next steps agree
    obtain ⟨hi, hstep⟩ := step_of_not_ready hr
    rw [← runsTo_step_iff (h.writeAll values), ← runsTo_step_iff (h.step.writeAll values)]
    have hsame : ((rig.step k).writeAll k values).step k = (rig.writeAll k values).step k := by
      rw [step_of_machine? (h.step.writeAll values).there,
        step_of_machine? (h.writeAll values).there, writeAll_of_machine? h.step.there,
        writeAll_of_machine? h.there, step_of_machine? h.there, hstep,
        Machine.step_await hi.1 h.sound.known, Array.setIfInBounds_setIfInBounds]
      rfl
    rw [hsame]

/-- Only the arrivals count. -/
theorem runsTo_drive (h : rig.Open k m) (events : List Event) :
    (rig.drive k events).RunsTo k final ↔ (rig.writeAll k (arrivals events)).RunsTo k final := by
  induction events generalizing rig m with
  | nil => exact Iff.rfl
  | cons event rest ih =>
    cases event with
    | arrival v => exact ih (h.write v)
    | step => exact (ih h.step).trans (runsTo_step_writeAll h _)

end Runs

/-! ## Outputs -/

section Outputs

variable {rig : Rig} {k : Nat} {m : Machine}

theorem outputs_of_machine? (hm : rig.machine? k = some m) :
    rig.outputs k = (rig.pipes.get m.output).history.toList := by
  simp only [outputs, hm]

theorem outputs_write (h : rig.Open k m) (v : Cell) : (rig.write k v).outputs k = rig.outputs k := by
  rw [outputs_of_machine? (h.write v).there, outputs_of_machine? h.there, write_of_machine? h.there]
  exact congrArg (fun p : Pipe => p.history.toList)
    (PipeTable.get_modify_of_ne h.apart rig.pipes _)

theorem outputs_writeAll (h : rig.Open k m) (values : List Cell) :
    (rig.writeAll k values).outputs k = rig.outputs k := by
  induction values generalizing rig with
  | nil => rfl
  | cons v rest ih =>
    show ((rig.write k v).writeAll k rest).outputs k = rig.outputs k
    rw [ih (h.write v), outputs_write h]

/-- Nothing that has been sent is taken back. -/
theorem outputs_prefix_step (h : rig.Open k m) : rig.outputs k <+: (rig.step k).outputs k := by
  rw [outputs_of_machine? h.there, outputs_of_machine? h.step.there,
    (m.step_wiring rig.pipes).2, pipes_step h.there]
  by_cases hlt : m.output < rig.pipes.size
  · rw [Machine.history_step m hlt]
    exact List.prefix_append _ _
  · -- a number that names no pipe reads as an empty one
    rw [PipeTable.get_of_size_le (Nat.le_of_not_lt hlt)]
    exact List.nil_prefix

theorem Open.steps (h : rig.Open k m) (n : Nat) :
    ∃ m', (rig.steps (List.replicate n k)).Open k m' := by
  induction n generalizing rig m with
  | zero => exact ⟨m, h⟩
  | succ n ih => exact ih h.step

theorem outputs_prefix_steps (h : rig.Open k m) (n : Nat) :
    rig.outputs k <+: (rig.steps (List.replicate n k)).outputs k := by
  induction n generalizing rig m with
  | zero => exact List.prefix_refl _
  | succ n ih => exact (outputs_prefix_step h).trans (ih h.step)

/-- After any number of steps, more input can only have added to the output. -/
theorem outputs_steps_writeAll (h : rig.Open k m) (values : List Cell) (n : Nat) :
    (rig.steps (List.replicate n k)).outputs k <+:
      ((rig.writeAll k values).steps (List.replicate n k)).outputs k := by
  induction n generalizing rig m with
  | zero =>
    show rig.outputs k <+: (rig.writeAll k values).outputs k
    exact ⟨[], by rw [List.append_nil, outputs_writeAll h]⟩
  | succ n ih =>
    by_cases hr : Ready m rig.pipes
    · -- the two rigs take the same step
      show ((rig.step k).steps _).outputs k <+: (((rig.writeAll k values).step k).steps _).outputs k
      rw [h.step_writeAll hr]
      exact ih h.step
    · -- one machine waits from now on, so it is enough that outputs stay
      obtain ⟨-, hstep⟩ := step_of_not_ready hr
      have hrest : (m.step rig.pipes).1.Rests (m.step rig.pipes).2 :=
        Machine.rests_of_step_waiting (by rw [hstep]; rfl)
      have hfixed : (rig.steps (List.replicate (n + 1) k)).outputs k = rig.outputs k := by
        have hself : (rig.step k).step k = rig.step k :=
          RestsAt.step_eq ⟨_, h.step.there, by rw [pipes_step h.there]; exact hrest⟩
        have hsteps : (rig.step k).steps (List.replicate n k) = rig.step k :=
          steps_fixed (fun _ hj => List.mem_singleton.1 hj ▸ hself)
            fun _ hj => List.mem_singleton.2 (List.eq_of_mem_replicate hj)
        rw [List.replicate_succ, steps_cons, hsteps, outputs_of_machine? h.step.there,
          outputs_of_machine? h.there, pipes_step h.there, hstep]
        rfl
      rw [hfixed, ← outputs_writeAll h values]
      exact outputs_prefix_steps (h.writeAll values) (n + 1)

end Outputs

/-! ## Late and early input -/

theorem runsTo_steps {rig final : Rig} {k : Nat} {m : Machine} (h : rig.Open k m) (n : Nat) :
    (rig.steps (List.replicate n k)).RunsTo k final ↔ rig.RunsTo k final := by
  induction n generalizing rig m with
  | zero => exact Iff.rfl
  | succ n ih => exact (ih h.step).trans (runsTo_step_iff h)

/-- A run that has less input has less output when it ends. -/
theorem outputs_prefix_of_runsTo {rig a b : Rig} {k : Nat} {m : Machine} (h : rig.Open k m)
    {values : List Cell} (ha : rig.RunsTo k a) (hb : (rig.writeAll k values).RunsTo k b) :
    a.outputs k <+: b.outputs k := by
  obtain ⟨fuel, ha⟩ := ha
  obtain ⟨n, rfl⟩ := steps_of_run ha
  -- the other run goes on from where it is after as many steps
  obtain ⟨fuel', hb⟩ := (runsTo_steps (h.writeAll values) n).2 hb
  obtain ⟨n', rfl⟩ := steps_of_run hb
  obtain ⟨m', hopen⟩ := (h.writeAll values).steps n
  exact (outputs_steps_writeAll h values n).trans (outputs_prefix_steps hopen n')

/-- When input arrives makes no difference. Whatever mixture of arrivals and steps a
machine has been through, its run ends if and only if the run with all input at the
start does, and then everything is the same in the end. What is sent on part of the
input is a first part of what is sent on all of it, after each number of steps and
at the ends of the runs. -/
theorem arrival_times_irrelevant {rig : Rig} {k : Nat} {m : Machine} (hr : rig.Reachable)
    (hm : rig.machine? k = some m) (hne : m.input ≠ m.output) :
    (∀ events final, (rig.drive k events).RunsTo k final ↔
      (rig.writeAll k (arrivals events)).RunsTo k final) ∧
    ∀ front values, front <+: values →
      (∀ n, ((rig.writeAll k front).steps (List.replicate n k)).outputs k <+:
        ((rig.writeAll k values).steps (List.replicate n k)).outputs k) ∧
      ∀ a b, (rig.writeAll k front).RunsTo k a → (rig.writeAll k values).RunsTo k b →
        a.outputs k <+: b.outputs k := by
  have hopen : rig.Open k m := ⟨hm, hr.sound k m hm, hne⟩
  refine ⟨fun events final => runsTo_drive hopen events, ?_⟩
  rintro front _ ⟨rest, rfl⟩
  rw [writeAll_append]
  refine ⟨outputs_steps_writeAll (hopen.writeAll front) rest, ?_⟩
  intro a b ha hb
  exact outputs_prefix_of_runsTo (hopen.writeAll front) ha hb

/-- Repeats two values, the first through the cell of its own first instruction. -/
def repeater : Memory :=
  ⟨#[3, 0, 4, 0, 3, 1, 4, 1, 99]⟩

/-- A repeater that is found waiting before the first value and again before the
second. -/
theorem repeater_arrival_times :
    ∃ rig, Rig.empty.install repeater [] false = .ok (rig, 0) ∧
      ((rig.drive 0 [.step]).machine? 0).map Machine.status = some .waiting ∧
      ((rig.drive 0 [.step, .arrival 5, .step, .step, .step]).machine? 0).map Machine.status =
        some .waiting ∧
      ∃ final, final.outputs 0 = [5, 7] ∧ (rig.writeAll 0 [5, 7]).RunsTo 0 final ∧
        (rig.drive 0 [.step, .arrival 5, .step, .step, .step, .arrival 7]).RunsTo 0 final ∧
        ∀ a, (rig.writeAll 0 [5]).RunsTo 0 a → a.outputs 0 <+: [5, 7] := by
  let rig : Rig := ⟨#[Machine.new "vm" false repeater 0 1], ⟨#[.empty, .empty]⟩⟩
  have hinst : Rig.empty.install repeater [] false = .ok (rig, 0) := rfl
  have hthere : rig.machine? 0 = some (Machine.new "vm" false repeater 0 1) := rfl
  have hrun : ((rig.writeAll 0 [5, 7]).run 5 0).map (fun final => final.outputs 0) =
      some [5, 7] := by
    decide +kernel
  obtain ⟨final, hfinal, hout⟩ := Option.map_eq_some_iff.1 hrun
  obtain ⟨hends, hfront⟩ := arrival_times_irrelevant (.install .empty hinst) hthere (by decide)
  refine ⟨rig, hinst, by decide +kernel, by decide +kernel, final, hout, ⟨5, hfinal⟩,
    (hends _ final).2 ⟨5, hfinal⟩, ?_⟩
  intro a ha
  rw [← hout]
  exact (hfront [5] [5, 7] (by decide)).2 a final ha ⟨5, hfinal⟩

end Rig

end CellMachine
