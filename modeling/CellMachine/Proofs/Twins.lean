import CellMachine.Proofs.Schedule

/-!
# Machines that differ only in names and wiring

What a machine does depends on its memory, its program counter, its status and the
values it reads, not on its names or on the numbers of its pipes. Two machines that
agree in the former are `Machine.Alike`. If they also read equal queues, they go
through the same states and send the same values for as long as both run
(`Machine.Twin.run`).
-/

set_option autoImplicit false

namespace CellMachine.Machine

/-- Two machines in the same state, whatever their names and pipes. -/
structure Alike (m m' : Machine) : Prop where
  memory : m.memory = m'.memory
  pc : m.pc = m'.pc
  status : m.status = m'.status
  count : m.count = m'.count
  cause : m.fault.map MachineFault.cause = m'.fault.map MachineFault.cause

theorem alike_new (name name' : String) (member member' : Bool) (memory : Memory)
    (input output input' output' : Nat) :
    (new name member memory input output).Alike (new name' member' memory input' output') :=
  ⟨rfl, rfl, rfl, rfl, rfl⟩

theorem Alike.stopped_iff {m m' : Machine} (h : m.Alike m') : m.Stopped ↔ m'.Stopped := by
  rw [Stopped, Stopped, h.status]

/-- What one machine has after an instruction, the other has too. -/
theorem Alike.advance {m m' : Machine} (h : m.Alike m') (next : Int) :
    (m.advance next).Alike (m'.advance next) :=
  ⟨h.memory, rfl, rfl, congrArg (· + 1) h.count, h.cause⟩

theorem Alike.store {m m' : Machine} (h : m.Alike m') (index : Nat) (v : Cell) :
    (m.store index v).Alike (m'.store index v) :=
  ⟨by rw [Machine.store, Machine.store, h.memory], h.pc, h.status, h.count, h.cause⟩

/-- Machines in the same state react to the same head in the same way. -/
theorem Alike.react {m m' : Machine} (h : m.Alike m') (head : Option Cell) :
    (m.react head).after.Alike (m'.react head).after ∧
      (m.react head).takes = (m'.react head).takes ∧
      (m.react head).sends = (m'.react head).sends := by
  by_cases hs : m.Stopped
  · simp only [Machine.react, hs, h.stopped_iff.1 hs, if_true, and_true]
    exact h
  · simp only [Machine.react, hs, mt h.stopped_iff.2 hs, if_false, ← h.memory, ← h.pc]
    cases plan m.memory m.pc with
    | error cause => exact ⟨⟨h.memory, h.pc, rfl, h.count, rfl⟩, rfl, rfl⟩
    | ok action =>
      cases action with
      | store index v next => exact ⟨(h.store index v).advance next, rfl, rfl⟩
      | receive index next =>
        cases head with
        | none => exact ⟨⟨h.memory, h.pc, rfl, h.count, h.cause⟩, rfl, rfl⟩
        | some v => exact ⟨(h.store index v).advance next, rfl, rfl⟩
      | send v next => exact ⟨h.advance next, rfl, rfl⟩
      | jump next => exact ⟨h.advance next, rfl, rfl⟩
      | halt => exact ⟨⟨h.memory, h.pc, rfl, congrArg (· + 1) h.count, h.cause⟩, rfl, rfl⟩

/-! ## The two ends of a machine -/

/-- The machine reads and writes different pipes, and the one it writes is there. -/
structure Wired (m : Machine) (t : PipeTable) : Prop where
  apart : m.input ≠ m.output
  there : m.output < t.size

section Steps

variable {m : Machine} {t : PipeTable}

theorem step_wiring (m : Machine) (t : PipeTable) :
    (m.step t).1.input = m.input ∧ (m.step t).1.output = m.output := by
  rw [step_eq]
  have hr := m.reacts_react (t.get m.input).queue.head?
  exact ⟨hr.wiring.1, hr.wiring.2.1⟩

@[simp] theorem size_step (m : Machine) (t : PipeTable) : (m.step t).2.size = t.size := by
  rw [step_eq, PipeTable.size_feed, PipeTable.size_draw]

theorem Wired.step (h : m.Wired t) : (m.step t).1.Wired (m.step t).2 := by
  obtain ⟨hin, hout⟩ := m.step_wiring t
  exact ⟨by rw [hin, hout]; exact h.apart, by rw [hout, size_step]; exact h.there⟩

/-- A step touches no other pipes than those of its machine. -/
theorem get_step_of_ne {i : Nat} (hin : m.input ≠ i) (hout : m.output ≠ i) :
    (m.step t).2.get i = t.get i := by
  rw [step_eq, PipeTable.get_feed_of_ne hout, PipeTable.get_draw_of_ne hin]

theorem queue_step_input (h : m.Wired t) :
    ((m.step t).2.get m.input).queue =
      if (m.react (t.get m.input).queue.head?).takes then (t.get m.input).queue.tail
      else (t.get m.input).queue := by
  rw [step_eq, PipeTable.get_feed_of_ne h.apart.symm, PipeTable.queue_draw_self]

theorem get_step_output (h : m.Wired t) :
    (m.step t).2.get m.output =
      (t.get m.output).pushAll (m.react (t.get m.input).queue.head?).sends.toList := by
  rw [step_eq, PipeTable.get_feed_self (by rw [PipeTable.size_draw]; exact h.there),
    PipeTable.get_draw_of_ne h.apart]

/-- What a run leaves alone: the wiring, the number of pipes, and the pipes of
others. -/
theorem run_frame {fuel : Nat} {m' : Machine} {t' : PipeTable} (h : m.run fuel t = some (m', t')) :
    m'.input = m.input ∧ m'.output = m.output ∧ t'.size = t.size ∧
      ∀ i, m.input ≠ i → m.output ≠ i → t'.get i = t.get i := by
  induction fuel generalizing m t with
  | zero => cases h
  | succ fuel ih =>
    simp only [run] at h
    split at h
    · cases h
      exact ⟨rfl, rfl, rfl, fun _ _ _ => rfl⟩
    · obtain ⟨hin, hout⟩ := m.step_wiring t
      split at h
      · obtain ⟨hin', hout', hsize, hget⟩ := ih h
        refine ⟨hin'.trans hin, hout'.trans hout, hsize.trans (size_step m t), ?_⟩
        intro i hi ho
        rw [hget i (by rwa [hin]) (by rwa [hout]), get_step_of_ne hi ho]
      · cases h
        exact ⟨hin, hout, size_step m t, fun i hi ho => get_step_of_ne hi ho⟩

theorem Reacts.fault {head : Option Cell} {r : Reaction} (h : m.Reacts head r) :
    r.after.fault = m.fault ∨ ∃ cause, r.after.fault = some ⟨m.name, cause⟩ := by
  cases h with
  | faults => exact Or.inr ⟨_, rfl⟩
  | stopped | stores | takes | waits | sends | jumps | halts => exact Or.inl rfl

theorem step_fault (m : Machine) (t : PipeTable) :
    (m.step t).1.name = m.name ∧
      ((m.step t).1.fault = m.fault ∨ ∃ cause, (m.step t).1.fault = some ⟨m.name, cause⟩) := by
  rw [step_eq]
  have hr := m.reacts_react (t.get m.input).queue.head?
  exact ⟨hr.wiring.2.2.1, hr.fault⟩

/-- A fault bears the name of its machine. -/
theorem fault_name_of_run {fuel : Nat} {m' : Machine} {t' : PipeTable}
    (h : m.run fuel t = some (m', t')) (hn : ∀ f, m.fault = some f → f.name = m.name) :
    ∀ f, m'.fault = some f → f.name = m.name := by
  induction fuel generalizing m t with
  | zero => cases h
  | succ fuel ih =>
    simp only [run] at h
    split at h
    · cases h
      exact hn
    · obtain ⟨hname, hfault⟩ := m.step_fault t
      have hn' : ∀ f, (m.step t).1.fault = some f → f.name = m.name := by
        intro f hf
        rcases hfault with he | ⟨cause, he⟩
        · exact hn f (he.symm.trans hf)
        · rw [he] at hf
          cases hf
          rfl
      split at h
      · rw [← hname] at hn' ⊢
        exact ih h hn'
      · cases h
        exact hn'

end Steps

/-! ## Running side by side -/

/-- Two machines in the same state that read equal queues and have sent the same
values, to pipes that held `p` and `p'` at first. -/
structure Twin (p p' : Pipe) (m : Machine) (t : PipeTable) (m' : Machine) (t' : PipeTable) :
    Prop where
  alike : m.Alike m'
  queue : (t.get m.input).queue = (t'.get m'.input).queue
  sent : ∃ values, t.get m.output = p.pushAll values ∧ t'.get m'.output = p'.pushAll values

variable {p p' : Pipe} {m m' : Machine} {t t' : PipeTable}

/-- Twins stay twins when both take a step. -/
theorem Twin.step (h : Twin p p' m t m' t') (hw : m.Wired t) (hw' : m'.Wired t') :
    Twin p p' (m.step t).1 (m.step t).2 (m'.step t').1 (m'.step t').2 := by
  -- both react to the same head, so they take and send the same
  obtain ⟨hafter, htakes, hsends⟩ := h.alike.react (t.get m.input).queue.head?
  obtain ⟨values, hv, hv'⟩ := h.sent
  refine ⟨?_, ?_, values ++ (m.react (t.get m.input).queue.head?).sends.toList, ?_, ?_⟩
  · rw [step_eq, step_eq, ← h.queue]
    exact hafter
  · rw [(m.step_wiring t).1, (m'.step_wiring t').1, queue_step_input hw, queue_step_input hw',
      ← h.queue, htakes]
  · rw [(m.step_wiring t).2, get_step_output hw, hv, Pipe.pushAll_pushAll]
  · rw [(m'.step_wiring t').2, get_step_output hw', hv', ← h.queue, ← hsends,
      Pipe.pushAll_pushAll]

/-- If one of two twins comes to the end of its run, so does the other, with the same
fuel, and they are twins at the end. -/
theorem Twin.run {fuel : Nat} {m₁' : Machine} {t₁' : PipeTable} (h : Twin p p' m t m' t')
    (hw : m.Wired t) (hw' : m'.Wired t') (hrun : m'.run fuel t' = some (m₁', t₁')) :
    ∃ m₁ t₁, m.run fuel t = some (m₁, t₁) ∧ Twin p p' m₁ t₁ m₁' t₁' := by
  induction fuel generalizing m t m' t' with
  | zero => cases hrun
  | succ fuel ih =>
    have hstep := h.step hw hw'
    simp only [Machine.run, h.alike.status, hstep.alike.status] at hrun ⊢
    by_cases hh : m'.status = .halted
    · rw [if_pos hh] at hrun ⊢
      cases hrun
      exact ⟨m, t, rfl, h⟩
    · rw [if_neg hh] at hrun ⊢
      by_cases hr : (m'.step t').1.status = .running
      · rw [if_pos hr] at hrun ⊢
        exact ih hstep hw.step hw'.step hrun
      · rw [if_neg hr] at hrun ⊢
        cases hrun
        exact ⟨_, _, rfl, hstep⟩

end CellMachine.Machine
