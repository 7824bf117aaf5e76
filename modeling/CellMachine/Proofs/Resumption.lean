import CellMachine.Proofs.LateInput

/-!
# Runs that wait and go on

A run on part of the input is a first part of the run on all of it. Either the two end
in the same way, or the shorter one waits where its input ends, and the longer one goes
on from there (`Machine.Lags.run`). So a run can be interrupted whenever the machine
waits, and taken up again when a value has been added (`Machine.Lags.push`).

The pipe that the machine writes to may be emptied by others in between: what has been
taken from it makes no difference to the machine (`Machine.Lags.drain`).
-/

set_option autoImplicit false

namespace CellMachine.Machine

/-- The machine in a table `t` lags behind the one in a table `u`: there, `values` are
queued behind its input already. The same has been sent in both. -/
structure Lags (m : Machine) (t u : PipeTable) (values : List Cell) : Prop where
  sound : m.Sound
  wired : m.Wired t
  wired' : m.Wired u
  source : m.input < t.size
  input : u.get m.input = (t.get m.input).pushAll values
  output : (u.get m.output).history.toList = (t.get m.output).history.toList

variable {m : Machine} {t u : PipeTable} {values : List Cell}

theorem Lags.queue (h : m.Lags t u values) :
    (u.get m.input).queue = (t.get m.input).queue ++ values := by
  rw [h.input, Pipe.queue_pushAll]

/-! ## Steps -/

/-- What is queued further behind is not seen by a machine that has something to read. -/
theorem Lags.react_eq (h : m.Lags t u values) (hr : Rig.Ready m t) :
    m.react (u.get m.input).queue.head? = m.react (t.get m.input).queue.head? := by
  by_cases hi : m.AtInput
  · obtain ⟨v, rest, hq⟩ := List.exists_cons_of_ne_nil (hr hi)
    rw [h.queue, hq]
    rfl
  · exact react_of_not_atInput hi _ _

/-- A machine that has something to read takes the same step in both tables. -/
theorem Lags.step (h : m.Lags t u values) (hr : Rig.Ready m t) :
    (m.step u).1 = (m.step t).1 ∧ (m.step t).1.Lags (m.step t).2 (m.step u).2 values := by
  have hreact := h.react_eq hr
  have hfirst : (m.step u).1 = (m.step t).1 := by rw [step_eq, step_eq, hreact]
  obtain ⟨hin, hout⟩ := m.step_wiring t
  refine ⟨hfirst, ?_, h.wired.step, ?_, ?_, ?_, ?_⟩
  · rw [step_eq]
    exact h.sound.react _
  · rw [← hfirst]
    exact h.wired'.step
  · rw [hin, size_step]
    exact h.source
  · -- the head is taken in both tables or in neither
    have htakes : (m.react (t.get m.input).queue.head?).takes = true →
        (t.get m.input).queue ≠ [] := by
      intro ht hnil
      exact (m.reacts_react _).head_ne_none ht (by rw [hnil]; rfl)
    rw [hin, step_eq, step_eq, hreact, PipeTable.get_feed_of_ne h.wired.apart.symm,
      PipeTable.get_feed_of_ne h.wired.apart.symm, PipeTable.get_draw_self,
      PipeTable.get_draw_self, h.input]
    cases ht : (m.react (t.get m.input).queue.head?).takes with
    | false => rfl
    | true => exact Pipe.skip_pushAll (htakes ht) values
  · rw [hout, history_step m h.wired.there, history_step m h.wired'.there, h.output]

/-! ## Traffic of others -/

/-- A value that arrives makes up for the first one that is missing. -/
theorem Lags.push {v : Cell} (h : m.Lags t u (v :: values)) :
    m.Lags (t.push m.input v) u values := by
  refine ⟨h.sound, ⟨h.wired.apart, ?_⟩, h.wired', ?_, ?_, ?_⟩
  · simpa using h.wired.there
  · simpa using h.source
  · rw [h.input, PipeTable.get_push_self h.source]
    rfl
  · rw [h.output, PipeTable.get_push_of_ne h.wired.apart]

/-- Taking what has been sent makes no difference. -/
theorem Lags.drain (h : m.Lags t u values) :
    m.Lags (t.modify m.output Pipe.drain) u values := by
  refine ⟨h.sound, ⟨h.wired.apart, ?_⟩, h.wired', ?_, ?_, ?_⟩
  · simpa using h.wired.there
  · simpa using h.source
  · rw [h.input, PipeTable.get_modify_of_ne h.wired.apart.symm]
  · rw [h.output, PipeTable.get_modify_self h.wired.there]
    rfl

theorem Rests.drain (hne : m.input ≠ m.output) (h : m.Rests t) :
    m.Rests (t.modify m.output Pipe.drain) := by
  rcases h with hh | ⟨hw, hi, hq⟩
  · exact Or.inl hh
  · refine Or.inr ⟨hw, hi, ?_⟩
    rw [PipeTable.get_modify_of_ne hne.symm, hq]

/-! ## Runs -/

/-- A run does not depend on whether its machine has been found waiting. -/
theorem run_await (h : m.AtInput) (hk : m.status ≠ .unknown) (fuel : Nat) (t : PipeTable) :
    m.await.run fuel t = m.run fuel t := by
  have hnot : m.status ≠ .halted := fun hh => h.1 (Or.inl hh)
  cases fuel with
  | zero => rfl
  | succ fuel =>
    simp only [run, step_await h.1 hk, hnot, if_false]
    rfl

theorem run_of_ended (h : m.Rests t ∨ m.status = .faulted) (fuel : Nat) :
    m.run (fuel + 1) t = some (m, t) := by
  rcases h with hrest | hf
  · exact hrest.run_eq fuel
  · exact run_of_stopped (Or.inr hf) t fuel

/-- The run on part of the input ends too, and the run on all of it goes on from there. -/
theorem Lags.run {fuel : Nat} {final : Machine × PipeTable} (h : m.Lags t u values)
    (hrun : m.run fuel u = some final) :
    ∃ m' t' u', m.run fuel t = some (m', t') ∧ (m'.Rests t' ∨ m'.status = .faulted) ∧
      m'.Lags t' u' values ∧ m'.run fuel u' = some final := by
  -- on the steps of the run on all of the input, which the other one follows until it waits
  induction fuel generalizing m t u with
  | zero => cases hrun
  | succ fuel ih =>
    by_cases hh : m.status = .halted
    · have hrests : m.Rests t := Or.inl hh
      exact ⟨m, t, u, hrests.run_eq fuel, Or.inl hrests, h, hrun⟩
    · by_cases hr : Rig.Ready m t
      · obtain ⟨hfirst, hnext⟩ := h.step hr
        have hrun' := hrun
        simp only [Machine.run, hh, if_false, hfirst] at hrun' ⊢
        by_cases hs : (m.step t).1.status = .running
        · rw [if_pos hs] at hrun' ⊢
          obtain ⟨m', t', u', ht, hend, hlag, hu⟩ := ih hnext hrun'
          exact ⟨m', t', u', ht, hend, hlag, run_mono hu (Nat.le_succ fuel)⟩
        · -- both runs are over
          rw [if_neg hs] at hrun' ⊢
          have hend := rests_or_faulted_of_step hnext.sound hs
          have hend' : (m.step u).1.Rests (m.step u).2 ∨ (m.step u).1.status = .faulted :=
            rests_or_faulted_of_step (by rw [hfirst]; exact hnext.sound) (by rwa [hfirst])
          rw [hfirst] at hend'
          exact ⟨_, _, _, rfl, hend, hnext, (run_of_ended hend' fuel).trans hrun'⟩
      · -- the machine waits here, and nothing else has changed
        obtain ⟨hi, hstep⟩ := Rig.step_of_not_ready hr
        have hrests : m.await.Rests t := by
          have hrests := rests_of_step_waiting (m := m) (t := t) (by rw [hstep]; rfl)
          rwa [hstep] at hrests
        have hsound : m.await.Sound := by
          have hsound := h.sound.react none
          rwa [react_none_of_atInput hi] at hsound
        have hlag : m.await.Lags t u values :=
          ⟨hsound, ⟨h.wired.apart, h.wired.there⟩, ⟨h.wired'.apart, h.wired'.there⟩, h.source,
            h.input, h.output⟩
        refine ⟨m.await, t, u, ?_, Or.inl hrests, hlag, ?_⟩
        · rw [← run_await hi h.sound.known]
          exact hrests.run_eq fuel
        · rw [run_await hi h.sound.known, hrun]

/-- Once the machine has stopped, or waits with nothing missing, the run on all of the
input is over as well. -/
theorem Lags.eq_of_ended {fuel : Nat} {final : Machine × PipeTable} (h : m.Lags t u values)
    (hend : m.Stopped ∨ m.Rests t ∧ values = []) (hrun : m.run fuel u = some final) :
    final = (m, u) := by
  cases fuel with
  | zero => cases hrun
  | succ fuel =>
    have hself : m.run (fuel + 1) u = some (m, u) := by
      rcases hend with hs | ⟨hh | ⟨hw, hi, hq⟩, rfl⟩
      · exact run_of_stopped hs u fuel
      · exact run_of_stopped (Or.inl hh) u fuel
      · have hq' : (u.get m.input).queue = [] := by rw [h.queue, hq, List.append_nil]
        exact run_of_ended (Or.inl (Or.inr ⟨hw, hi, hq'⟩)) fuel
    rw [hself] at hrun
    exact (Option.some.inj hrun).symm

/-! ## What a run does to the pipes -/

/-- The machine is wired to pipes from which, since they were `p` and `p'`, values have
been taken at the front and to which values have been added. -/
structure Trades (i o : Nat) (p p' : Pipe) (m : Machine) (t : PipeTable) : Prop where
  wired : m.Wired t
  input : m.input = i
  output : m.output = o
  kept : (t.get i).history = p.history
  taken : (t.get i).queue <:+ p.queue
  sent : ∃ values, t.get o = p'.pushAll values

theorem Trades.step {i o : Nat} {p p' : Pipe} (h : Trades i o p p' m t) :
    Trades i o p p' (m.step t).1 (m.step t).2 := by
  obtain ⟨hw, rfl, rfl, hkept, htaken, values, hsent⟩ := h
  obtain ⟨hin, hout⟩ := m.step_wiring t
  refine ⟨hw.step, hin, hout, ?_, ?_, ?_⟩
  · rw [step_eq, PipeTable.get_feed_of_ne hw.apart.symm, PipeTable.history_draw, hkept]
  · rw [queue_step_input hw]
    split
    · exact (List.tail_suffix _).trans htaken
    · exact htaken
  · rw [get_step_output hw, hsent, Pipe.pushAll_pushAll]
    exact ⟨_, rfl⟩

/-- A run takes from the front of its input and adds to its output. -/
theorem trades_of_run {fuel : Nat} {m' : Machine} {t' : PipeTable} (hw : m.Wired t)
    (hrun : m.run fuel t = some (m', t')) :
    Trades m.input m.output (t.get m.input) (t.get m.output) m' t' :=
  run_induction (fun _ _ h => h.step)
    ⟨hw, rfl, rfl, rfl, List.suffix_refl _, [], rfl⟩ hrun

/-- A machine that was about to read its last value has read it when its run ends. -/
theorem queue_run_of_atInput {fuel : Nat} {m' : Machine} {t' : PipeTable} {v : Cell}
    (hw : m.Wired t) (hi : m.AtInput) (hq : (t.get m.input).queue = [v])
    (hrun : m.run fuel t = some (m', t')) : (t'.get m.input).queue = [] := by
  have hstep : ((m.step t).2.get m.input).queue = [] := by
    obtain ⟨hs, index, next, hp⟩ := hi
    have htakes : (m.react (some v)).takes = true := by simp only [react, hs, if_false, hp]
    rw [queue_step_input hw, hq, List.head?_cons, htakes]
    rfl
  cases fuel with
  | zero => cases hrun
  | succ fuel =>
    have hnot : m.status ≠ .halted := fun hh => hi.1 (Or.inl hh)
    simp only [run, hnot, if_false] at hrun
    split at hrun
    · have hrest := (trades_of_run hw.step hrun).taken
      rw [(m.step_wiring t).1, hstep] at hrest
      exact List.suffix_nil.1 hrest
    · cases hrun
      exact hstep

end CellMachine.Machine
