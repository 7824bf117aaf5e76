import CellMachine.Command.Job
import CellMachine.Proofs.Buffering
import CellMachine.Proofs.Numerals
import CellMachine.Proofs.Resumption

/-!
# Console sessions and plain runs

A session gives its machine the numbers on the lines one at a time, each when the machine
waits for it, and prints what the machine sends in between. In the end this is the run of
the machine with all the numbers queued from the start (`Session.interactive_eq_batch`).

The proof follows the session from one pause to the next. `Session.Tracks` says how far a
session has come: its machine lags behind the plain run by the numbers not yet read, and
all that has been sent is printed. A run of the machine keeps this
(`Session.Tracks.resume`), and so does a line that is read (`Session.Tracks.accept`).
-/

set_option autoImplicit false

namespace CellMachine

/-! ## The numbers on lines -/

namespace Lines

/-- What the lines hold without the white space around it, blank lines left out. -/
def words (lines : List Text) : List Text :=
  (lines.map Text.trim).filter fun w => !w.isEmpty

/-- The numbers among words, which are the decimal literals that fit 64 bits
(`Numeral.int64_eq_ok_iff`). With a prompt, other words are passed over. Without one, the
first of them is the end. -/
def values (prompting : Bool) (words : List Text) : List Cell :=
  let readings := words.map fun w => (Numeral.int64 w).toOption
  if prompting then readings.filterMap id else (readings.takeWhile Option.isSome).filterMap id

/-- The numbers in a text, line by line. -/
def numbers (prompting : Bool) (t : Text) : List Cell :=
  values prompting (words (t.split (·.is '\n')))

theorem words_cons_blank {line : Text} (h : line.trim = []) (lines : List Text) :
    words (line :: lines) = words lines := by
  simp [words, h]

theorem words_cons {line : Text} (h : line.trim ≠ []) (lines : List Text) :
    words (line :: lines) = line.trim :: words lines := by
  simp [words, h]

theorem values_nil (prompting : Bool) : values prompting [] = [] := by
  cases prompting <;> rfl

theorem values_cons_ok {w : Text} {v : Cell} (h : Numeral.int64 w = .ok v) (prompting : Bool)
    (ws : List Text) : values prompting (w :: ws) = v :: values prompting ws := by
  cases prompting with
  | true => simp [values, h, Except.toOption]
  | false => simp [values, h, Except.toOption]

theorem values_cons_error {w : Text} {e : NumeralFault} (h : Numeral.int64 w = .error e)
    (prompting : Bool) (ws : List Text) :
    values prompting (w :: ws) = if prompting then values prompting ws else [] := by
  cases prompting with
  | true => simp [values, h, Except.toOption]
  | false => simp [values, h, Except.toOption]

/-- An empty last line makes no difference. -/
theorem words_dropLast {lines : List Text} (h : lines.getLast? = some []) :
    words lines.dropLast = words lines := by
  obtain ⟨front, rfl⟩ := List.getLast?_eq_some_iff.1 h
  rw [List.dropLast_concat, words, words, List.map_append, List.filter_append]
  exact (List.append_nil _).symm

/-- If no line is too long, all are read. -/
theorem ofText_of_short {t : Text} (h : ∀ line ∈ t.split (·.is '\n'), byteSize line < tooLong) :
    words (ofText t none).lines = words (t.split (·.is '\n')) ∧ (ofText t none).failure = none := by
  have hread : ∀ parts : List Text, (∀ line ∈ parts, byteSize line < tooLong) →
      (parts.takeWhile fun part => byteSize part < tooLong).length = parts.length := by
    intro parts hparts
    rw [List.takeWhile_eq_self_iff.2 fun line hline => by simpa using hparts line hline]
  by_cases hlast : (t.split (·.is '\n')).getLast? = some []
  · have hshort := hread _ fun line hline => h line (List.dropLast_subset _ hline)
    simp only [ofText, hlast, if_true, hshort, and_true]
    exact words_dropLast hlast
  · simp only [ofText, hlast, if_false, hread _ h, if_true, and_self]

end Lines

/-- The text of outputs: each is a line. -/
def outputText (values : List Cell) : String :=
  String.join (values.map fun v => Numeral.writeCell v ++ "\n")

theorem outputText_append (values values' : List Cell) :
    outputText (values ++ values') = outputText values ++ outputText values' := by
  simp [outputText]

/-- Outputs that are written and flushed reach the sink. -/
theorem Buffered.flush_outputs {sink : Sink} (hs : sink.capacity = none) (values : List Cell) :
    (values.foldl (fun out v => out.writeString (Numeral.writeCell v ++ "\n"))
      (Buffered.new sink)).flush = .new (sink.andText (outputText values)) := by
  have hall := (holds_new sink).writeStrings hs (fun v => Numeral.writeCell v ++ "\n") values
  have h := hall.flush hs
  rw [ByteArray.empty_append] at h
  exact h

namespace Session

/-! ## Pauses -/

section Pauses

variable {s : Session Sink} {sink : Sink}

@[simp] theorem isSome_prompt_say (s : Session Sink) (text : String) :
    (s.say text).prompt.isSome = s.prompt.isSome :=
  Option.isSome_map

@[simp] theorem isSome_prompt_ask (s : Session Sink) : s.ask.prompt.isSome = s.prompt.isSome :=
  s.isSome_prompt_say "? "

/-- The session `s'` comes after `s`, which had printed `text`: the outputs that were left
are printed too, and what comes next depends on how the machine has ended. -/
structure Settles (s s' : Session Sink) (sink : Sink) (text : String) : Prop where
  machine : s'.machine = s.machine
  pipes : s'.pipes = s.pipes.modify s.machine.output Pipe.drain
  prompt : s'.prompt.isSome = s.prompt.isSome
  output : s'.output =
    .new (sink.andText (text ++ outputText (s.pipes.get s.machine.output).queue))
  faulted : ∀ f, s.machine.error? = some f → s'.stage = .finished (some (.machine f))
  halted : s.machine.status = .halted → s'.stage = .finished none
  waiting : s.machine.status = .waiting → s'.stage = .ask

theorem settles_settle (hs : sink.capacity = none) {text : String}
    (hout : s.output = .new (sink.andText text)) : s.Settles s.settle sink text := by
  have hs' : (sink.andText text).capacity = none := hs
  have hflush := Buffered.flush_outputs hs' (s.pipes.get s.machine.output).queue
  rw [Sink.andText_andText, ← hout] at hflush
  cases herr : s.machine.error? with
  | some f =>
    have hf : s.machine.status = .faulted := by
      by_contra hne
      simp [Machine.error?, hne] at herr
    constructor <;> simp [settle, printOutputs, PipeTable.popAll_eq, hflush, herr, hf]
  | none =>
    by_cases hh : s.machine.status = .halted
    · constructor <;>
        simp [settle, printOutputs, PipeTable.popAll_eq, hflush, herr, hh, Buffered.new]
    · constructor <;>
        simp [settle, printOutputs, PipeTable.popAll_eq, hflush, herr, hh, Buffered.new, ask, say]

end Pauses

/-- How far a session has come, seen from a plain run that ends in `final`. Of the numbers
that the lines hold, `given` have been queued behind the values `q`, and `rest` are
missing. All that the machine has sent is printed. -/
structure Tracks (s : Session Sink) (sink : Sink) (fuel : Nat) (final : Machine × PipeTable)
    (q given rest : List Cell) : Prop where
  pending : ∃ u, s.machine.Lags s.pipes u rest ∧ s.machine.run fuel u = some final
  printed : s.output =
    .new (sink.andText (outputText (s.pipes.get s.machine.output).history.toList))
  drained : (s.pipes.get s.machine.output).queue = []
  received : (s.pipes.get s.machine.input).history.toList = q ++ given

/-- The machine waits, and the session asks for a line. -/
structure Asks (s : Session Sink) : Prop where
  waiting : s.machine.status = .waiting
  rests : s.machine.Rests s.pipes
  stage : s.stage = .ask

/-- The session is over, as the state of its machine has it. A machine is left waiting only
when no more numbers are to be had. -/
inductive Over (s : Session Sink) (rest : List Cell) : Prop where
  | halted : s.machine.status = .halted → s.stage = .finished none → Over s rest
  | faulted {f : MachineFault} : s.machine.status = .faulted → s.machine.fault = some f →
      s.stage = .finished (some (.machine f)) → Over s rest
  | starved {cause : InputError} : s.machine.status = .waiting → s.machine.Rests s.pipes →
      rest = [] → s.stage = .finished (some (.input s.machine.pc cause)) → Over s rest

/-- Of the numbers given so far, the machine has taken all. -/
def Spent (s : Session Sink) (given : List Cell) : Prop :=
  given = [] ∨ (s.pipes.get s.machine.input).queue = []

section Tracking

variable {s : Session Sink} {sink : Sink} {fuel : Nat} {final : Machine × PipeTable}
variable {q given rest : List Cell}

/-- After a run, a session asks for a line or is over. -/
theorem Settles.asks_or_over {s' : Session Sink} {text : String} (h : s.Settles s' sink text)
    (hsound : s.machine.Sound) (hne : s.machine.input ≠ s.machine.output)
    (hend : s.machine.Rests s.pipes ∨ s.machine.status = .faulted) : s'.Asks ∨ s'.Over rest := by
  have hm := h.machine
  rcases hend with hrests | hf
  · rcases id hrests with hh | ⟨hw, -, -⟩
    · exact Or.inr (.halted (by rw [hm, hh]) (h.halted hh))
    · refine Or.inl ⟨by rw [hm, hw], ?_, h.waiting hw⟩
      rw [hm, h.pipes]
      exact hrests.drain hne
  · obtain ⟨f, hfault⟩ := Option.ne_none_iff_exists'.1 (hsound.blamed hf)
    have herror : s.machine.error? = some f := by simp [Machine.error?, hf, hfault]
    exact Or.inr (.faulted (by rw [hm, hf]) (by rw [hm, hfault]) (h.faulted f herror))

/-- A session that goes on with its machine gets to the next pause. -/
theorem Tracks.resume (hs : sink.capacity = none) (h : s.Tracks sink fuel final q given rest)
    (hnext : given = [] ∨ s.machine.AtInput ∧ ∃ v, (s.pipes.get s.machine.input).queue = [v]) :
    ∃ s', s.resume fuel = some s' ∧ s'.prompt.isSome = s.prompt.isSome ∧
      s'.Tracks sink fuel final q given rest ∧ s'.Spent given ∧ (s'.Asks ∨ s'.Over rest) := by
  obtain ⟨⟨u, hlag, hu⟩, hprinted, hdrained, hreceived⟩ := h
  obtain ⟨m', t', u', hrun, hend, hlag', hu'⟩ := hlag.run hu
  obtain ⟨-, hin, hout, hkept, -, sent, hsent⟩ := Machine.trades_of_run hlag.wired hrun
  have hresume : s.resume fuel = some (settle { s with machine := m', pipes := t' }) := by
    simp only [Session.resume, hrun, Option.map_some]
  have hsettles := settles_settle (s := { s with machine := m', pipes := t' }) hs hprinted
  generalize settle { s with machine := m', pipes := t' } = s' at hresume hsettles
  have hm : s'.machine = m' := hsettles.machine
  have ht : s'.pipes = t'.modify m'.output Pipe.drain := hsettles.pipes
  -- the two pipes of the machine after the run and the printing
  have hinput : s'.pipes.get s'.machine.input = t'.get s.machine.input := by
    rw [hm, ht, hin, hout, PipeTable.get_modify_of_ne hlag.wired.apart.symm]
  have houtput : s'.pipes.get s'.machine.output =
      ((s.pipes.get s.machine.output).pushAll sent).drain := by
    rw [hm, ht, PipeTable.get_modify_self hlag'.wired.there, hout, hsent]
  refine ⟨s', hresume, hsettles.prompt, ⟨⟨u', ?_, ?_⟩, ?_, ?_, ?_⟩, ?_, ?_⟩
  · rw [hm, ht]
    exact hlag'.drain
  · rw [hm]
    exact hu'
  · have hqueue : (t'.get m'.output).queue = sent := by
      rw [hout, hsent, Pipe.queue_pushAll, hdrained, List.nil_append]
    rw [hsettles.output, hqueue, houtput, ← outputText_append, ← Pipe.history_pushAll]
    rfl
  · rw [houtput, Pipe.queue_drain]
  · rw [hinput, hkept, hreceived]
  · rcases hnext with hnil | ⟨hi, v, hq⟩
    · exact Or.inl hnil
    · right
      rw [hinput]
      exact Machine.queue_run_of_atInput hlag.wired hi hq hrun
  · exact hsettles.asks_or_over hlag'.sound hlag'.wired.apart hend

/-! ## Lines -/

theorem accept_blank {line : Text} (h : line.trim = []) : s.accept line = s.ask := by
  simp [accept, h]

theorem accept_number {line : Text} {v : Cell} (hne : line.trim ≠ [])
    (h : Numeral.int64 line.trim = .ok v) :
    s.accept line = { s with pipes := s.pipes.push s.machine.input v, stage := .run } := by
  have hread : Numeral.read .index line.trim = .ok v := Numeral.read_eq_ok_iff.2 h
  simp [accept, hne, hread]

theorem accept_other {line : Text} {e : NumeralFault} (hne : line.trim ≠ [])
    (h : Numeral.int64 line.trim = .error e) :
    s.accept line =
      if s.prompt.isSome then (s.say ("not a number: " ++ Quoted.quote line.trim ++ "\n")).ask
      else s.refuse (.notANumber ⟨.index, line.trim, e⟩) := by
  have hread : Numeral.read .index line.trim = .error ⟨.index, line.trim, e⟩ := by
    simp only [Numeral.read, h]
  simp [accept, hne, hread]

/-- What is said, and what comes next, is no matter of the machine. -/
theorem Tracks.talk (h : s.Tracks sink fuel final q given rest) (prompt : Option String)
    (stage : Stage) : Tracks { s with prompt, stage } sink fuel final q given rest :=
  ⟨h.pending, h.printed, h.drained, h.received⟩

theorem Asks.talk (h : s.Asks) (prompt : Option String) :
    Asks { s with prompt, stage := .ask } :=
  ⟨h.waiting, h.rests, rfl⟩

/-- A number that is given to the machine is one that is not missing any more. -/
theorem Tracks.give {v : Cell} (h : s.Tracks sink fuel final q given (v :: rest)) :
    Tracks { s with pipes := s.pipes.push s.machine.input v, stage := .run }
      sink fuel final q (given ++ [v]) rest := by
  obtain ⟨⟨u, hlag, hu⟩, hprinted, hdrained, hreceived⟩ := h
  have houtput : (s.pipes.push s.machine.input v).get s.machine.output =
      s.pipes.get s.machine.output := PipeTable.get_push_of_ne hlag.wired.apart _ v
  have hinput : (s.pipes.push s.machine.input v).get s.machine.input =
      (s.pipes.get s.machine.input).push v := PipeTable.get_push_self hlag.source v
  refine ⟨⟨u, hlag.push, hu⟩, ?_, ?_, ?_⟩
  · simp only [houtput]
    exact hprinted
  · simp only [houtput]
    exact hdrained
  · simp only [hinput, Pipe.push, Array.toList_push, hreceived, List.append_assoc]

theorem Asks.atInput (h : s.Asks) :
    s.machine.AtInput ∧ (s.pipes.get s.machine.input).queue = [] := by
  rcases h.rests with hh | ⟨-, hi, hq⟩
  · rw [h.waiting] at hh
    cases hh
  · exact ⟨hi, hq⟩

theorem Over.finished (h : s.Over rest) : ∃ e, s.stage = .finished e := by
  cases h with
  | halted _ hstage => exact ⟨_, hstage⟩
  | faulted _ _ hstage => exact ⟨_, hstage⟩
  | starved _ _ _ hstage => exact ⟨_, hstage⟩

/-- The session after a line, at the next pause. -/
def hear (fuel : Nat) (s : Session Sink) (line : Text) : Option (Session Sink) :=
  if (s.accept line).stage = .run then (s.accept line).resume fuel else some (s.accept line)

theorem converse_of_finished {s' : Session Sink} {line : Text} {e : Option SessionError}
    (h : s.hear fuel line = some s') (he : s'.stage = .finished e) (lines : List Text) :
    s.converse fuel (line :: lines) = some s' := by
  cases hstage : (s.accept line).stage with
  | run =>
    simp only [hear, hstage, if_true] at h
    simp only [converse, hstage, h, he]
  | ask | finished =>
    simp only [hear, hstage, reduceCtorEq, if_false, Option.some.injEq] at h
    subst h
    simp only [converse, hstage, reduceCtorEq] at he ⊢

theorem converse_of_ask {s' : Session Sink} {line : Text} (h : s.hear fuel line = some s')
    (ha : s'.stage = .ask) (lines : List Text) :
    s.converse fuel (line :: lines) = s'.converse fuel lines := by
  cases hstage : (s.accept line).stage with
  | run =>
    simp only [hear, hstage, if_true] at h
    simp only [converse, hstage, h, ha]
  | ask | finished =>
    simp only [hear, hstage, reduceCtorEq, if_false, Option.some.injEq] at h
    subst h
    simp only [converse, hstage, reduceCtorEq] at ha ⊢

/-- A session that asks is tracked from one line to the next. -/
theorem Tracks.hear (hs : sink.capacity = none) {line : Text} {lines : List Text}
    (h : s.Tracks sink fuel final q given
      (Lines.values s.prompt.isSome (Lines.words (line :: lines))))
    (hspent : s.Spent given) (hask : s.Asks) :
    ∃ s' given' rest', s.hear fuel line = some s' ∧ s'.prompt.isSome = s.prompt.isSome ∧
      s'.Tracks sink fuel final q given' rest' ∧ s'.Spent given' ∧
      given' ++ rest' = given ++ Lines.values s.prompt.isSome (Lines.words (line :: lines)) ∧
      (s'.Asks ∧ rest' = Lines.values s.prompt.isSome (Lines.words lines) ∨ s'.Over rest') := by
  by_cases hblank : line.trim = []
  · rw [Lines.words_cons_blank hblank] at h ⊢
    refine ⟨s.ask, given, _, ?_, s.isSome_prompt_ask, h.talk _ _, hspent, rfl,
      Or.inl ⟨hask.talk _, rfl⟩⟩
    simp [Session.hear, accept_blank hblank, ask]
  · rw [Lines.words_cons hblank] at h ⊢
    cases hread : Numeral.int64 line.trim with
    | ok v =>
      rw [Lines.values_cons_ok hread] at h ⊢
      obtain ⟨hi, hq⟩ := hask.atInput
      obtain ⟨u, hlag, -⟩ := h.pending
      -- the machine is about to take the number that it is given
      have hqueue : ((s.pipes.push s.machine.input v).get s.machine.input).queue = [v] := by
        simp [hlag.source, hq]
      obtain ⟨s', hresume, hprompt, htrack, hspent', hstate⟩ :=
        h.give.resume hs (Or.inr ⟨hi, v, hqueue⟩)
      refine ⟨s', given ++ [v], _, ?_, hprompt, htrack, hspent', by simp, ?_⟩
      · simp only [Session.hear, accept_number hblank hread, if_true]
        exact hresume
      · rcases hstate with hask' | hover
        · exact Or.inl ⟨hask', rfl⟩
        · exact Or.inr hover
    | error e =>
      have haccept := accept_other (s := s) hblank hread
      rw [Lines.values_cons_error hread] at h ⊢
      by_cases hprompt : s.prompt.isSome = true
      · -- the question is repeated
        rw [if_pos hprompt] at h haccept ⊢
        refine ⟨(s.say ("not a number: " ++ Quoted.quote line.trim ++ "\n")).ask, given, _, ?_, ?_,
          h.talk _ _, hspent, rfl, Or.inl ⟨hask.talk _, rfl⟩⟩
        · simp [Session.hear, haccept, ask]
        · rw [isSome_prompt_ask, isSome_prompt_say]
      · -- the session ends here, and so do the numbers
        rw [if_neg hprompt] at h haccept ⊢
        refine ⟨s.refuse (.notANumber ⟨.index, line.trim, e⟩), given, [], ?_, rfl, h.talk _ _,
          hspent, rfl, Or.inr (.starved hask.waiting hask.rests rfl rfl)⟩
        simp [Session.hear, haccept, refuse]

/-- A session that asks comes to its end with the lines that are left. -/
theorem Tracks.converse (hs : sink.capacity = none) {lines : List Text}
    (h : s.Tracks sink fuel final q given (Lines.values s.prompt.isSome (Lines.words lines)))
    (hspent : s.Spent given) (hask : s.Asks) :
    ∃ s' given' rest', (s.converse fuel lines).map (fun s => s.close none) = some s' ∧
      s'.Tracks sink fuel final q given' rest' ∧ s'.Spent given' ∧ s'.Over rest' ∧
      given' ++ rest' = given ++ Lines.values s.prompt.isSome (Lines.words lines) := by
  -- on the lines: at each pause, what is missing is what the lines left over hold
  induction lines generalizing s given with
  | nil =>
    have hvalues : Lines.values s.prompt.isSome (Lines.words []) = [] := Lines.values_nil _
    rw [hvalues] at h ⊢
    refine ⟨s.refuse .exhausted, given, [], ?_, h.talk _ _, hspent, ?_, rfl⟩
    · simp [Session.converse, close, hask.stage]
    · exact .starved hask.waiting hask.rests rfl rfl
  | cons line lines ih =>
    obtain ⟨s₁, given₁, rest₁, hhear, hprompt, htrack, hspent₁, hsplit, hstate⟩ :=
      h.hear hs hspent hask
    rw [← hsplit]
    rcases hstate with ⟨hask₁, rfl⟩ | hover
    · rw [converse_of_ask hhear hask₁.stage, ← hprompt]
      rw [← hprompt] at htrack
      exact ih htrack hspent₁ hask₁
    · obtain ⟨e, hstage⟩ := hover.finished
      refine ⟨s₁, given₁, rest₁, ?_, htrack, hspent₁, hover, rfl⟩
      simp [converse_of_finished hhear hstage, close, hstage]

/-- A whole session comes to its end. -/
theorem Tracks.serve (hs : sink.capacity = none) {input : Lines} (hinput : input.failure = none)
    (h : s.Tracks sink fuel final q []
      (Lines.values s.prompt.isSome (Lines.words input.lines))) :
    ∃ s' given rest, s.serve fuel input = some s' ∧ s'.Tracks sink fuel final q given rest ∧
      s'.Spent given ∧ s'.Over rest ∧
      given ++ rest = Lines.values s.prompt.isSome (Lines.words input.lines) := by
  obtain ⟨s₁, hresume, hprompt, htrack, hspent, hstate⟩ := h.resume hs (Or.inl rfl)
  rcases hstate with hask | hover
  · rw [← hprompt] at htrack
    obtain ⟨s', given, rest, hconverse, hend⟩ := htrack.converse hs hspent hask
    rw [hprompt] at hend
    refine ⟨s', given, rest, ?_, hend⟩
    simp only [Session.serve, hresume, hask.stage, hinput]
    exact hconverse
  · obtain ⟨e, hstage⟩ := hover.finished
    refine ⟨s₁, [], _, ?_, htrack, hspent, hover, rfl⟩
    simp only [Session.serve, hresume, hstage]

/-- When a session is over, so is the plain run. -/
theorem Over.final_eq (hover : s.Over rest) {u : PipeTable} (hlag : s.machine.Lags s.pipes u rest)
    (hrun : s.machine.run fuel u = some final) : final = (s.machine, u) := by
  refine hlag.eq_of_ended ?_ hrun
  cases hover with
  | halted hh _ => exact Or.inl (Or.inl hh)
  | faulted hf _ _ => exact Or.inl (Or.inr hf)
  | starved _ hrests hnil _ => exact Or.inr ⟨hrests, hnil⟩

/-- What ended a session tells how its machine ended. -/
theorem Over.error?_iff (hover : s.Over rest) :
    s.stage = .finished s.error? ∧
      (s.error? = none ↔ s.machine.status = .halted) ∧
      ((∃ f, s.machine.fault = some f ∧ s.error? = some (.machine f)) ↔
        s.machine.status = .faulted) ∧
      ((∃ cause, s.error? = some (.input s.machine.pc cause)) ↔ s.machine.status = .waiting) := by
  cases hover with
  | halted hh hstage => simp [error?, hstage, hh]
  | faulted hf hfault hstage => simp [error?, hstage, hf, hfault]
  | starved hw _ _ hstage => simp [error?, hstage, hw]

end Tracking

/-- If all that came behind the values `q` has been taken, what is left is from `q`, and no
more has come than was taken. -/
theorem queue_of_spent {p : Pipe} {q given : List Cell} (hp : p.history.toList = q ++ given)
    (hspent : given = [] ∨ p.queue = []) (rest : List Cell) :
    p.queue = q.drop p.taken ∧
      p.history.toList = q ++ (given ++ rest).take (p.taken - q.length) := by
  have hsize : p.history.size = q.length + given.length := by
    rw [← Array.length_toList, hp, List.length_append]
  have hle := p.taken_le
  rcases hspent with rfl | hnil
  · have hzero : p.taken - q.length = 0 := by
      simp only [List.length_nil] at hsize
      omega
    rw [Pipe.queue, hp, hzero]
    simp
  · have hge := (Pipe.queue_eq_nil_iff p).1 hnil
    have htaken : p.taken - q.length = given.length := by omega
    rw [hnil, hp, htaken, List.take_left, List.drop_eq_nil_of_le (by omega)]
    exact ⟨rfl, rfl⟩

/-- The pipes of a machine on its own, with values queued at its input. -/
def lonePipes (values : List Cell) : PipeTable :=
  ⟨#[.ofList values, .empty]⟩

/-- What the run command prepares for a program is a machine on its own. -/
theorem sessionJob_eq {memory : Memory} (h : memory.size ≠ 0) (path : String) (q : List Cell)
    (dump : Bool) :
    Command.sessionJob path memory q [] dump =
      .ok (.session (Machine.new path false memory 0 1) (lonePipes q) dump) := by
  have hinst : Rig.install ⟨#[], ⟨#[.ofList q]⟩⟩ memory [.input (some 0), .name path] false =
      .ok (⟨#[.new path false memory 0 1], lonePipes q⟩, 0) := by
    simp only [Rig.install, h, if_false]
    rfl
  simp only [Command.sessionJob, Patch.applyAll, List.foldlM_nil, pure, Except.pure, hinst]
  rfl

theorem tracks_start {sink : Sink} {fuel : Nat} {final : Machine × PipeTable} {q rest : List Cell}
    (name : String) (member : Bool) (memory : Memory) (prompting : Bool)
    (hrun : (Machine.new name member memory 0 1).run fuel (lonePipes (q ++ rest)) = some final) :
    (start (Machine.new name member memory 0 1) (lonePipes q) (.new sink) prompting).Tracks
      sink fuel final q [] rest := by
  have hpipe : Pipe.ofList (q ++ rest) = (Pipe.ofList q).pushAll rest :=
    (Pipe.pushAll_pushAll .empty q rest).symm
  have hlag : (Machine.new name member memory 0 1).Lags (lonePipes q) (lonePipes (q ++ rest))
      rest :=
    ⟨Machine.sound_new name member memory 0 1, ⟨Nat.zero_ne_one, Nat.one_lt_two⟩,
      ⟨Nat.zero_ne_one, Nat.one_lt_two⟩, Nat.two_pos, hpipe, rfl⟩
  refine ⟨⟨_, hlag, hrun⟩, ?_, rfl, ?_⟩
  · exact congrArg Buffered.new sink.andText_empty.symm
  · show (Pipe.empty.pushAll q).history.toList = q ++ []
    rw [Pipe.history_pushAll, List.append_nil]
    rfl

/-- Let the run of a machine end on a queue `q` followed by all numbers of a text. Then the
session on the queue `q` and the lines of the text ends too, with the same machine, and
prints what the run sends, one value to a line. It is successful if the run halts, reports
the fault if it faults, and fails for want of input if it is left waiting. What is left in
the input pipe is what the run leaves of `q`, and no more numbers have been read than the
run takes. -/
theorem interactive_eq_batch (name : String) (member : Bool) (memory : Memory) (q : List Cell)
    (text : Text) (prompting : Bool) {sink : Sink} (hs : sink.capacity = none)
    (hshort : ∀ line ∈ text.split (·.is '\n'), Lines.byteSize line < Lines.tooLong)
    {fuel : Nat} {m : Machine} {t : PipeTable}
    (hrun : (Machine.new name member memory 0 1).run fuel
      (lonePipes (q ++ Lines.numbers prompting text)) = some (m, t)) :
    ∃ s, (start (Machine.new name member memory 0 1) (lonePipes q) (.new sink) prompting).serve
        fuel (Lines.ofText text none) = some s ∧
      s.machine = m ∧
      s.output = .new (sink.andText (outputText (t.get 1).history.toList)) ∧
      s.stage = .finished s.error? ∧
      (s.error? = none ↔ m.status = .halted) ∧
      ((∃ f, m.fault = some f ∧ s.error? = some (.machine f)) ↔ m.status = .faulted) ∧
      ((∃ cause, s.error? = some (.input m.pc cause)) ↔ m.status = .waiting) ∧
      (s.pipes.get 0).queue = q.drop (t.get 0).taken ∧
      (s.pipes.get 0).history.toList =
        q ++ (Lines.numbers prompting text).take ((t.get 0).taken - q.length) := by
  obtain ⟨hwords, hfailure⟩ := Lines.ofText_of_short hshort
  generalize hs₀ :
    start (Machine.new name member memory 0 1) (lonePipes q) (.new sink) prompting = s₀
  have hnumbers : Lines.values s₀.prompt.isSome (Lines.words (Lines.ofText text none).lines) =
      Lines.numbers prompting text := by
    have hprompt : s₀.prompt.isSome = prompting := by
      rw [← hs₀]
      cases prompting <;> rfl
    rw [hprompt, hwords, Lines.numbers]
  have htrack : s₀.Tracks sink fuel (m, t) q [] (Lines.numbers prompting text) := by
    rw [← hs₀]
    exact tracks_start name member memory prompting hrun
  rw [← hnumbers] at htrack ⊢
  obtain ⟨s, given, rest, hserve, htracked, hspent, hover, hsplit⟩ := htrack.serve hs hfailure
  obtain ⟨⟨u, hlag, hu⟩, hprinted, -, hreceived⟩ := htracked
  -- the session is over, so it has caught up with the run
  obtain ⟨rfl, rfl⟩ := Prod.mk.inj (hover.final_eq hlag hu)
  obtain ⟨hin, hout, -, -⟩ := Machine.run_frame hrun
  obtain ⟨hstage, hnone, hfault, hinput⟩ := hover.error?_iff
  have hout' : s.machine.output = 1 := hout
  have hin' : s.machine.input = 0 := hin
  -- the run has taken as much as the session has
  have htaken : (t.get 0).taken = (s.pipes.get 0).taken := by
    rw [← hin', hlag.input, Pipe.taken_pushAll]
  have hsent := hlag.output
  rw [hout'] at hsent hprinted
  rw [Spent, hin'] at hspent
  rw [hin'] at hreceived
  obtain ⟨hqueue, hhistory⟩ := queue_of_spent hreceived hspent rest
  rw [← htaken] at hqueue hhistory
  rw [hsplit] at hhistory
  exact ⟨s, hserve, rfl, by rw [hsent, hprinted], hstage, hnone, hfault, hinput, hqueue, hhistory⟩

/-- A word that is no number, a blank line, and two numbers. -/
def dialogue : Text :=
  Text.ofString "seven\n\n 7 \n8\n"

/-- A repeater of two values, of which the first is queued, takes the second from the lines
and leaves the rest of them alone. -/
theorem repeater_dialogue :
    Command.sessionJob "vm" Rig.repeater [5] [] false =
      .ok (.session (Machine.new "vm" false Rig.repeater 0 1) (lonePipes [5]) false) ∧
    Lines.numbers true dialogue = [7, 8] ∧
      ∃ s, (start (Machine.new "vm" false Rig.repeater 0 1) (lonePipes [5]) (.new .unbounded)
          true).serve 5 (Lines.ofText dialogue none) = some s ∧
        s.machine.status = .halted ∧ s.error? = none ∧
        s.output = .new (Sink.unbounded.andText "5\n7\n") ∧
        (s.pipes.get 0).queue = [] ∧ (s.pipes.get 0).history.toList = [5, 7] := by
  have hroom : Sink.unbounded.capacity = none := rfl
  have hnumbers : Lines.numbers true dialogue = [7, 8] := by decide +kernel
  have hends : ((Machine.new "vm" false Rig.repeater 0 1).run 5
      (lonePipes ([5] ++ Lines.numbers true dialogue))).map
        (fun c => (c.1.status, (c.2.get 1).history.toList, (c.2.get 0).taken)) =
      some (.halted, [5, 7], 2) := by
    decide +kernel
  obtain ⟨⟨m, t⟩, hrun, hend⟩ := Option.map_eq_some_iff.1 hends
  simp only [Prod.mk.injEq] at hend
  obtain ⟨hstatus, hout, htaken⟩ := hend
  obtain ⟨s, hserve, rfl, houtput, -, hnone, -, -, hqueue, hhistory⟩ :=
    interactive_eq_batch "vm" false Rig.repeater [5] dialogue true hroom
      (by decide +kernel) hrun
  rw [hout] at houtput
  rw [htaken] at hqueue
  rw [htaken, hnumbers] at hhistory
  exact ⟨sessionJob_eq (by decide) "vm" [5] false, hnumbers, s, hserve, hstatus,
    hnone.2 hstatus, houtput, hqueue, hhistory⟩

end Session

end CellMachine
