import CellMachine.Proofs.Capacity
import CellMachine.Proofs.Interactive

/-!
# Sessions whose output runs full

A session writes its outputs through a buffer and looks at the error of the buffer only when it
has flushed it, at the next pause. A sink with a limit may have run full long before, in the
middle of a value or of a block. Still nothing but the tail is lost, and never silently
(`Session.serve_keeps_front`).

Up to the pause at which more has been written than the sink can hold, the session is the same as
one whose sink takes everything, apart from the sink (`Session.limited`). At that pause it ends
(`Session.shadows_settle`), while the other session may go on: it runs on, reads on, and only adds
to what it has written (`Session.Continues`).
-/

set_option autoImplicit false

namespace CellMachine

/-! ## Outputs -/

/-- Outputs that are written and flushed reach the sink as far as it has room. -/
theorem Buffered.passed_flush_outputs {limit : Nat} {bytes : ByteArray} (h : bytes.size ≤ limit)
    (reason : String) (values : List Cell) :
    (values.foldl (fun out v => out.writeString (Numeral.writeCell v ++ "\n"))
      (new (.filled limit reason bytes))).flush.Passed limit reason
        (bytes ++ (outputText values).toUTF8) := by
  apply Fills.flush
  exact (passed_new h reason).fills.writeStrings (fun v => Numeral.writeCell v ++ "\n") values

theorem Machine.count_le_run {fuel : Nat} {m m' : Machine} {t t' : PipeTable}
    (h : m.run fuel t = some (m', t')) : m.count ≤ m'.count := by
  apply run_induction (P := fun m₁ _ => m.count ≤ m₁.count) _ (Nat.le_refl _) h
  intro m₁ t₁ hle
  apply Nat.le_trans hle
  have hstep := (m₁.reacts_react (t₁.get m₁.input).queue.head?).count_le
  rw [step_eq]
  exact hstep

namespace Session

variable {s t : Session Sink} {fuel : Nat}

/-! ## Pauses and lines -/

/-- A line is taken without regard to the output. -/
theorem accept_with (s : Session Sink) (output : Buffered Sink) (line : Text) :
    accept { s with output } line = { s.accept line with output } := by
  by_cases hblank : line.trim = []
  · rw [accept_blank hblank, accept_blank hblank]
    rfl
  · cases hread : Numeral.int64 line.trim with
    | ok v => rw [accept_number hblank hread, accept_number hblank hread]
    | error e =>
      rw [accept_other hblank hread, accept_other hblank hread]
      by_cases hprompt : s.prompt.isSome = true
      · rw [if_pos hprompt, if_pos hprompt]
        rfl
      · rw [if_neg hprompt, if_neg hprompt]
        rfl

@[simp]
theorem output_accept (s : Session Sink) (line : Text) : (s.accept line).output = s.output := by
  rw [s.accept_with s.output line]

@[simp]
theorem machine_accept (s : Session Sink) (line : Text) : (s.accept line).machine = s.machine := by
  by_cases hblank : line.trim = []
  · rw [accept_blank hblank]
    rfl
  · cases hread : Numeral.int64 line.trim with
    | ok v => rw [accept_number hblank hread]
    | error e =>
      rw [accept_other hblank hread]
      split
      · rfl
      · rfl

/-- A session with the outputs of its machine written and flushed. -/
def flushed (s : Session Sink) : Session Sink :=
  { s.printOutputs with output := s.printOutputs.output.flush }

/-- After a run of the machine, a session asks or is finished. If its output has met an error, it is
finished with an error. -/
theorem settle_cases (s : Session Sink) :
    s.settle = s.flushed.ask ∧ s.flushed.output.error = none ∨
      ∃ e, s.settle = { s.flushed with stage := .finished e } ∧
        (s.flushed.output.error ≠ none → e ≠ none) := by
  cases hfault : s.machine.error? with
  | some fault =>
    refine Or.inr ⟨some (.machine fault), ?_, fun _ => Option.some_ne_none _⟩
    simp only [settle, printOutputs, hfault, flushed]
  | none =>
    cases herror : s.flushed.output.error with
    | some cause =>
      refine Or.inr ⟨some (.output (.failed cause)), ?_, fun _ => Option.some_ne_none _⟩
      simp only [flushed, printOutputs] at herror
      simp only [settle, printOutputs, hfault, herror, flushed]
    | none =>
      simp only [flushed, printOutputs] at herror
      by_cases hhalted : s.machine.status = .halted
      · refine Or.inr ⟨none, ?_, fun hne => absurd rfl hne⟩
        simp only [settle, printOutputs, hfault, herror, flushed]
        exact if_pos hhalted
      · refine Or.inl ⟨?_, rfl⟩
        simp only [settle, printOutputs, hfault, herror, flushed]
        exact if_neg hhalted

theorem output_settle (s : Session Sink) : s.settle.output = s.flushed.output := by
  rcases s.settle_cases with ⟨heq, -⟩ | ⟨e, heq, -⟩
  · rw [heq]
    rfl
  · rw [heq]

@[simp] theorem machine_settle (s : Session Sink) : s.settle.machine = s.machine := by
  rcases s.settle_cases with ⟨heq, -⟩ | ⟨e, heq, -⟩
  · rw [heq]
    rfl
  · rw [heq]
    rfl

/-- As long as there is no error, the output makes no difference. -/
theorem settle_with (output : Buffered Sink) (h : s.flushed.output.error = none)
    (h' : (flushed { s with output }).output.error = none) :
    settle { s with output } = { s.settle with output := (flushed { s with output }).output } := by
  simp only [flushed, printOutputs] at h h'
  cases hfault : s.machine.error? with
  | some fault => simp only [settle, printOutputs, hfault, flushed]
  | none =>
    by_cases hhalted : s.machine.status = .halted
    · simp only [settle, printOutputs, hfault, h, h', hhalted, if_true, flushed]
    · simp only [settle, printOutputs, hfault, h, h', hhalted, if_false, flushed]
      rfl

theorem stage_resume (h : s.resume fuel = some t) :
    t.stage = .ask ∨ ∃ e, t.stage = .finished e := by
  obtain ⟨⟨m, p⟩, -, rfl⟩ := Option.map_eq_some_iff.1 h
  rcases settle_cases { s with machine := m, pipes := p } with ⟨heq, -⟩ | ⟨e, heq, -⟩
  · exact Or.inl (congrArg stage heq)
  · exact Or.inr ⟨e, congrArg stage heq⟩

theorem stage_hear {line : Text} (h : s.hear fuel line = some t) :
    t.stage = .ask ∨ ∃ e, t.stage = .finished e := by
  unfold hear at h
  by_cases hrun : (s.accept line).stage = .run
  · rw [if_pos hrun] at h
    exact stage_resume h
  · rw [if_neg hrun] at h
    obtain rfl := Option.some.inj h
    cases hstage : (s.accept line).stage with
    | run => exact absurd hstage hrun
    | ask => exact Or.inl rfl
    | finished e => exact Or.inr ⟨e, rfl⟩

/-- A session that gets to its end with some lines gets past the first of them. -/
theorem hear_of_converse {line : Text} {lines : List Text}
    (h : s.converse fuel (line :: lines) = some t) :
    ∃ s₁, s.hear fuel line = some s₁ ∧
      ((∃ e, s₁.stage = .finished e) ∧ t = s₁ ∨
        s₁.stage = .ask ∧ s₁.converse fuel lines = some t) := by
  cases hhear : s.hear fuel line with
  | none =>
    -- the machine does not get to a pause
    exfalso
    unfold hear at hhear
    by_cases hrun : (s.accept line).stage = .run
    · rw [if_pos hrun] at hhear
      simp [converse, hrun, hhear] at h
    · rw [if_neg hrun] at hhear
      cases hhear
  | some s₁ =>
    refine ⟨s₁, rfl, ?_⟩
    rcases stage_hear hhear with hask | ⟨e, hend⟩
    · rw [converse_of_ask hhear hask] at h
      exact Or.inr ⟨hask, h⟩
    · rw [converse_of_finished hhear hend] at h
      exact Or.inl ⟨⟨e, hend⟩, (Option.some.inj h).symm⟩

/-- The lines that are read by a session that asks for one. -/
def heard (fuel : Nat) : List Text → Session Sink → List Text
  | [], _ => []
  | line :: rest, s =>
    match s.hear fuel line with
    | none => [line]
    | some s' => if s'.stage = .ask then line :: heard fuel rest s' else [line]

/-- The lines that are read by a whole session (`consumes_reads`). -/
def reads (fuel : Nat) (s : Session Sink) (input : Lines) : List Text :=
  match s.resume fuel with
  | none => []
  | some s' => if s'.stage = .ask then heard fuel input.lines s' else []

theorem heard_of_ask {line : Text} (h : s.hear fuel line = some t) (ha : t.stage = .ask)
    (lines : List Text) : heard fuel (line :: lines) s = line :: heard fuel lines t := by
  rw [heard, h]
  exact if_pos ha

theorem singleton_prefix_heard (fuel : Nat) (line : Text) (lines : List Text) (s : Session Sink) :
    [line] <+: heard fuel (line :: lines) s := by
  unfold heard
  repeat' split
  · exact List.prefix_refl _
  · exact List.cons_prefix_cons.2 ⟨rfl, List.nil_prefix⟩
  · exact List.prefix_refl _

theorem heard_of_finished {line : Text} {e : Option SessionError} (h : s.hear fuel line = some t)
    (he : t.stage = .finished e) (lines : List Text) : heard fuel (line :: lines) s = [line] := by
  have hne : t.stage ≠ .ask := by simp [he]
  rw [heard, h]
  exact if_neg hne

theorem serve_of_ask (h : s.resume fuel = some t) (ha : t.stage = .ask) (input : Lines) :
    s.serve fuel input = (t.converse fuel input.lines).map (·.close input.failure) ∧
      s.reads fuel input = heard fuel input.lines t := by
  constructor
  · simp only [serve, h, ha]
  · simp only [reads, h, ha, if_true]

theorem serve_of_finished {e : Option SessionError} (h : s.resume fuel = some t)
    (he : t.stage = .finished e) (input : Lines) :
    s.serve fuel input = some t ∧ s.reads fuel input = [] := by
  constructor
  · simp only [serve, h, he]
  · simp only [reads, h, he, reduceCtorEq, if_false]

/-- A session that gets to its end gets to its first pause. -/
theorem resume_of_serve {input : Lines} (h : s.serve fuel input = some t) :
    ∃ s₁, s.resume fuel = some s₁ ∧
      ((∃ e, s₁.stage = .finished e) ∧ t = s₁ ∨
        s₁.stage = .ask ∧ (s₁.converse fuel input.lines).map (·.close input.failure) = some t) := by
  cases hresume : s.resume fuel with
  | none => simp only [serve, hresume, reduceCtorEq] at h
  | some s₁ =>
    refine ⟨s₁, rfl, ?_⟩
    rcases stage_resume hresume with hask | ⟨e, hend⟩
    · rw [(serve_of_ask hresume hask input).1] at h
      exact Or.inr ⟨hask, h⟩
    · rw [(serve_of_finished hresume hend input).1] at h
      exact Or.inl ⟨⟨e, hend⟩, (Option.some.inj h).symm⟩

/-- A session that is closed is over, whatever its output. -/
theorem exists_close (s : Session Sink) (failure : Option String) :
    ∃ e, ∀ output : Buffered Sink,
      close { s with output } failure = { s with output, stage := .finished e } := by
  cases hstage : s.stage with
  | finished e =>
    refine ⟨e, ?_⟩
    intro output
    simp only [close]
  | run | ask =>
    refine ⟨some (.input s.machine.pc (failure.elim .exhausted .unreadable)), ?_⟩
    intro output
    simp only [close]
    rfl

/-- Lines are heard from the front. Unless all of them are, it makes no difference what comes behind
those that are heard. -/
theorem converse_heard {lines : List Text} (h : s.converse fuel lines = some t) :
    heard fuel lines s <+: lines ∧
      (heard fuel lines s = lines ∨
        ∀ others, s.converse fuel (heard fuel lines s ++ others) = some t) := by
  induction lines generalizing s with
  | nil => exact ⟨List.prefix_refl _, Or.inl rfl⟩
  | cons line lines ih =>
    obtain ⟨s₁, hhear, ⟨⟨e, hend⟩, rfl⟩ | ⟨hask, hrest⟩⟩ := hear_of_converse h
    · rw [heard_of_finished hhear hend]
      refine ⟨List.cons_prefix_cons.2 ⟨rfl, List.nil_prefix⟩, Or.inr ?_⟩
      intro others
      exact converse_of_finished hhear hend others
    · -- the session that asks again hears the other lines
      rw [heard_of_ask hhear hask]
      obtain ⟨hfront, hall⟩ := ih hrest
      refine ⟨List.cons_prefix_cons.2 ⟨rfl, hfront⟩, ?_⟩
      rcases hall with hall | hothers
      · exact Or.inl (by rw [hall])
      · right
        intro others
        rw [List.cons_append, converse_of_ask hhear hask, hothers]

/-- With fewer lines than it hears, a session still asks when there are no more. -/
theorem converse_fewer {lines fewer : List Text} (hask : s.stage = .ask)
    (h : s.converse fuel lines = some t) (hfront : fewer <+: heard fuel lines s)
    (hne : fewer ≠ heard fuel lines s) :
    ∃ t', s.converse fuel fewer = some t' ∧ t'.stage = .ask := by
  induction lines generalizing s fewer with
  | nil => exact absurd (List.prefix_nil.1 hfront) hne
  | cons line lines ih =>
    cases fewer with
    | nil => exact ⟨s, rfl, hask⟩
    | cons first fewer =>
      obtain ⟨s₁, hhear, ⟨⟨e, hend⟩, rfl⟩ | ⟨hask₁, hrest⟩⟩ := hear_of_converse h
      · -- the session hears a single line, and there is one
        rw [heard_of_finished hhear hend] at hfront hne
        obtain ⟨rfl, hnil⟩ := List.cons_prefix_cons.1 hfront
        exact absurd (by rw [List.prefix_nil.1 hnil]) hne
      · rw [heard_of_ask hhear hask₁] at hfront hne
        obtain ⟨rfl, hless⟩ := List.cons_prefix_cons.1 hfront
        rw [converse_of_ask hhear hask₁]
        exact ih hask₁ hrest hless fun heq => hne (by rw [heq])

/-- A whole session is over in the end. -/
theorem finished_serve {input : Lines} (h : s.serve fuel input = some t) :
    t.stage = .finished t.error? := by
  have hover : ∃ e, t.stage = .finished e := by
    obtain ⟨s₁, -, ⟨hend, rfl⟩ | ⟨-, hrest⟩⟩ := resume_of_serve h
    · exact hend
    · obtain ⟨t₁, -, rfl⟩ := Option.map_eq_some_iff.1 hrest
      obtain ⟨e, hclose⟩ := t₁.exists_close input.failure
      exact ⟨e, by rw [hclose t₁.output]⟩
  obtain ⟨e, hend⟩ := hover
  simp only [error?, hend]

/-- The lines `read` are those that a session reads before it ends as `t`. They are the first lines
of the input. Unless they are all, it makes no difference what comes behind them, and with fewer the
session would end for want of a line. -/
structure Consumes (fuel : Nat) (s t : Session Sink) (input : Lines) (read : List Text) : Prop where
  front : read <+: input.lines
  enough : read = input.lines ∨
    ∀ others, s.serve fuel { input with lines := read ++ others } = some t
  needed : ∀ fewer, fewer <+: read → fewer ≠ read →
    ∃ t', s.serve fuel { input with lines := fewer } = some t' ∧
      t'.error? = some (.input t'.machine.pc (input.failure.elim .exhausted .unreadable))

theorem consumes_reads {input : Lines} (h : s.serve fuel input = some t) :
    s.Consumes fuel t input (s.reads fuel input) := by
  obtain ⟨s₁, hresume, ⟨⟨e, hend⟩, rfl⟩ | ⟨hask, hrest⟩⟩ := resume_of_serve h
  · rw [(serve_of_finished hresume hend input).2]
    refine ⟨List.nil_prefix, Or.inr ?_, ?_⟩
    · intro others
      exact (serve_of_finished hresume hend _).1
    · intro fewer hfront hne
      exact absurd (List.prefix_nil.1 hfront) hne
  · obtain ⟨t₁, hconverse, rfl⟩ := Option.map_eq_some_iff.1 hrest
    rw [(serve_of_ask hresume hask input).2]
    obtain ⟨hfront, hall⟩ := converse_heard hconverse
    refine ⟨hfront, ?_, ?_⟩
    · rcases hall with hall | hothers
      · exact Or.inl hall
      · right
        intro others
        rw [(serve_of_ask hresume hask _).1, hothers, Option.map_some]
    · intro fewer hless hne
      obtain ⟨t', hfewer, hasks⟩ := converse_fewer hask hconverse hless hne
      refine ⟨t'.close input.failure, ?_, ?_⟩
      · rw [(serve_of_ask hresume hask _).1, hfewer, Option.map_some]
      · simp only [close, hasks, refuse, error?]

/-! ## Going on -/

/-- What has reached the sink of a session. -/
def content (s : Session Sink) : ByteArray :=
  s.output.dest.content

/-- The sink takes everything, and nothing is on its way to it. -/
def Calm (s : Session Sink) : Prop :=
  ∃ sink : Sink, sink.capacity = none ∧ s.output = .new sink

/-- The session `t` comes later than `s`: more instructions are executed, and more is written. -/
structure Continues (s t : Session Sink) : Prop where
  calm : t.Calm
  count : s.machine.count ≤ t.machine.count
  content : ∃ more, t.content = s.content ++ more

theorem Continues.trans {u : Session Sink} (h : s.Continues t) (h' : t.Continues u) :
    s.Continues u := by
  obtain ⟨more, hmore⟩ := h.content
  obtain ⟨more', hmore'⟩ := h'.content
  refine ⟨h'.calm, Nat.le_trans h.count h'.count, more ++ more', ?_⟩
  rw [hmore', hmore, ByteArray.append_assoc]

/-- What is asked or answered goes neither to the machine nor to the sink. -/
theorem Calm.continues (h : s.Calm) (houtput : t.output = s.output)
    (hmachine : t.machine = s.machine) : s.Continues t := by
  refine ⟨?_, by rw [hmachine], .empty, ?_⟩
  · rw [Calm, houtput]
    exact h
  · rw [Session.content, houtput, ByteArray.append_empty, Session.content]

/-- The outputs of the machine all reach the sink. -/
theorem Calm.flushed (h : s.Calm) :
    ∃ sink, sink.capacity = none ∧ s.output = .new sink ∧ s.flushed.output =
      .new (sink.andText (outputText (s.pipes.get s.machine.output).queue)) := by
  obtain ⟨sink, hroom, houtput⟩ := h
  refine ⟨sink, hroom, houtput, ?_⟩
  rw [Session.flushed, printOutputs, houtput]
  exact Buffered.flush_outputs hroom _

theorem Calm.settle (h : s.Calm) : s.Continues s.settle := by
  obtain ⟨sink, hroom, houtput, hflushed⟩ := h.flushed
  refine ⟨⟨_, ?_, (output_settle s).trans hflushed⟩, ?_,
    (outputText (s.pipes.get s.machine.output).queue).toUTF8, ?_⟩
  · exact hroom
  · rw [machine_settle]
  · rw [Session.content, output_settle, hflushed, Session.content, houtput]
    rfl

theorem Calm.resume (h : s.Calm) (hresume : s.resume fuel = some t) : s.Continues t := by
  obtain ⟨⟨m, p⟩, hrun, rfl⟩ := Option.map_eq_some_iff.1 hresume
  have hran : s.Continues { s with machine := m, pipes := p } :=
    ⟨h, Machine.count_le_run hrun, .empty, ByteArray.append_empty.symm⟩
  exact hran.trans hran.calm.settle

theorem Calm.hear (h : s.Calm) {line : Text} (hhear : s.hear fuel line = some t) :
    s.Continues t := by
  have haccept := h.continues (s.output_accept line) (s.machine_accept line)
  unfold Session.hear at hhear
  split at hhear
  · exact haccept.trans (haccept.calm.resume hhear)
  · obtain rfl := Option.some.inj hhear
    exact haccept

theorem Calm.converse (h : s.Calm) {lines : List Text}
    (hconverse : s.converse fuel lines = some t) : s.Continues t := by
  induction lines generalizing s with
  | nil =>
    obtain rfl := Option.some.inj hconverse
    exact h.continues rfl rfl
  | cons line lines ih =>
    obtain ⟨s₁, hhear, ⟨-, rfl⟩ | ⟨-, hrest⟩⟩ := hear_of_converse hconverse
    · exact h.hear hhear
    · exact (h.hear hhear).trans (ih (h.hear hhear).calm hrest)

/-! ## Two sessions side by side -/

/-- The session whose sink has a limit, as long as it has had room for everything. -/
def limited (limit : Nat) (reason : String) (s : Session Sink) : Session Sink :=
  { s with output := .new (.filled limit reason s.content) }

/-- The session `s'`, whose sink has a limit, beside `s`, whose sink takes everything. Either they
are the same apart from the sink, or `s'` is over with an error, with the first bytes of what `s`
has written. -/
inductive Shadows (limit : Nat) (reason : String) (s s' : Session Sink) : Prop where
  | along : s.content.size ≤ limit → s' = s.limited limit reason → Shadows limit reason s s'
  | ended {e : SessionError} : limit < s.content.size → s'.machine.count ≤ s.machine.count →
      s'.stage = .finished (some e) → s'.content = firstBytes limit s.content →
      Shadows limit reason s s'

section Shadows

variable {limit : Nat} {reason : String} {s' : Session Sink}

theorem limited_accept (s : Session Sink) (line : Text) :
    (s.limited limit reason).accept line = (s.accept line).limited limit reason := by
  rw [limited, accept_with, limited, content, content, output_accept]

/-- The outputs of the machine reach the sink with a limit as far as it has room. -/
theorem Calm.passed_limited (h : s.Calm) (hfits : s.content.size ≤ limit) :
    (s.limited limit reason).flushed.output.Passed limit reason s.settle.content := by
  obtain ⟨sink, -, houtput, hflushed⟩ := h.flushed
  have hcontent : s.content = sink.content := by rw [content, houtput]; rfl
  rw [hcontent] at hfits
  rw [limited, hcontent, content, output_settle, hflushed]
  exact Buffered.passed_flush_outputs hfits reason _

/-- A pause is where an error of the sink is seen. -/
theorem shadows_settle (h : s.Calm) (hfits : s.content.size ≤ limit) :
    Shadows limit reason s.settle (s.limited limit reason).settle := by
  have hpassed : (s.limited limit reason).flushed.output.Passed limit reason s.settle.content :=
    h.passed_limited hfits
  by_cases hmore : s.settle.content.size ≤ limit
  · have hnew := hpassed.eq_new hmore
    have hsame : (s.limited limit reason).settle =
        { s.settle with output := (s.limited limit reason).flushed.output } := by
      obtain ⟨sink, -, -, hflushed⟩ := h.flushed
      apply settle_with
      · exact congrArg Buffered.error hflushed
      · exact congrArg Buffered.error hnew
    apply Shadows.along hmore
    rw [hsame, hnew]
    rfl
  · have herror : (s.limited limit reason).flushed.output.error ≠ none := by
      rw [hpassed.error, Ne, overflow?_eq_none_iff]
      exact hmore
    rcases (s.limited limit reason).settle_cases with ⟨-, hnone⟩ | ⟨e, heq, hsome⟩
    · exact absurd hnone herror
    · obtain ⟨cause, rfl⟩ := Option.ne_none_iff_exists'.1 (hsome herror)
      apply Shadows.ended (Nat.not_le.1 hmore)
      · apply Nat.le_of_eq
        rw [machine_settle, machine_settle]
        rfl
      · rw [heq]
      · rw [content, output_settle, hpassed.dest]
        rfl

theorem shadows_resume (reason : String) (h : s.Calm) (hfits : s.content.size ≤ limit)
    (hresume : s.resume fuel = some t) :
    ∃ t', (s.limited limit reason).resume fuel = some t' ∧ Shadows limit reason t t' := by
  obtain ⟨⟨m, p⟩, hrun, rfl⟩ := Option.map_eq_some_iff.1 hresume
  refine ⟨_, Option.map_eq_some_iff.2 ⟨(m, p), hrun, rfl⟩, ?_⟩
  exact shadows_settle (s := { s with machine := m, pipes := p }) h hfits

theorem shadows_hear (reason : String) (h : s.Calm) (hfits : s.content.size ≤ limit) {line : Text}
    (hhear : s.hear fuel line = some t) :
    ∃ t', (s.limited limit reason).hear fuel line = some t' ∧ Shadows limit reason t t' := by
  have haccept := h.continues (s.output_accept line) (s.machine_accept line)
  have hfits' : (s.accept line).content.size ≤ limit := by
    rw [content, output_accept]
    exact hfits
  unfold hear at hhear ⊢
  rw [limited_accept]
  have hstage : ((s.accept line).limited limit reason).stage = (s.accept line).stage := rfl
  rw [hstage]
  by_cases hrun : (s.accept line).stage = .run
  · rw [if_pos hrun] at hhear ⊢
    exact shadows_resume reason haccept.calm hfits' hhear
  · rw [if_neg hrun] at hhear ⊢
    obtain rfl := Option.some.inj hhear
    exact ⟨_, rfl, .along hfits' rfl⟩

/-- A session that is over stays behind the one that goes on. -/
theorem Shadows.later (h : Shadows limit reason s s') (hover : limit < s.content.size)
    (hnext : s.Continues t) : Shadows limit reason t s' := by
  cases h with
  | along hfits => exact absurd hfits (Nat.not_le.2 hover)
  | ended _ hcount hstage hfront =>
    obtain ⟨more, hmore⟩ := hnext.content
    apply Shadows.ended _ (Nat.le_trans hcount hnext.count) hstage
    · rw [hfront, hmore, firstBytes_append_of_le (Nat.le_of_lt hover)]
    · rw [hmore, ByteArray.size_append]
      omega

theorem shadows_converse (reason : String) {lines : List Text} (h : s.Calm)
    (hfits : s.content.size ≤ limit) (hconverse : s.converse fuel lines = some t) :
    ∃ t', (s.limited limit reason).converse fuel lines = some t' ∧ Shadows limit reason t t' ∧
      heard fuel lines (s.limited limit reason) <+: heard fuel lines s := by
  -- on the lines: side by side up to the pause at which the sink is full
  induction lines generalizing s with
  | nil =>
    obtain rfl := Option.some.inj hconverse
    exact ⟨_, rfl, .along hfits rfl, List.prefix_refl _⟩
  | cons line lines ih =>
    obtain ⟨s₁, hhear, hrest⟩ := hear_of_converse hconverse
    obtain ⟨s₁', hhear', hshadow⟩ := shadows_hear reason h hfits hhear
    have hnext := h.hear hhear
    cases id hshadow with
    | along hfits₁ hsame =>
      subst hsame
      rcases hrest with ⟨⟨e, hend⟩, rfl⟩ | ⟨hask, hrest⟩
      · refine ⟨_, converse_of_finished hhear' hend lines, hshadow, ?_⟩
        rw [heard_of_finished hhear' hend]
        exact singleton_prefix_heard fuel line lines s
      · obtain ⟨t', hconverse', hshadow', hheard⟩ := ih hnext.calm hfits₁ hrest
        refine ⟨t', ?_, hshadow', ?_⟩
        · rw [converse_of_ask hhear' hask, hconverse']
        · rw [heard_of_ask hhear hask, heard_of_ask hhear' hask]
          exact List.cons_prefix_cons.2 ⟨rfl, hheard⟩
    | ended hover _ hend' _ =>
      refine ⟨s₁', converse_of_finished hhear' hend' lines, ?_, ?_⟩
      · rcases hrest with ⟨-, rfl⟩ | ⟨-, hrest⟩
        · exact hshadow
        · exact hshadow.later hover (hnext.calm.converse hrest)
      · rw [heard_of_finished hhear' hend']
        exact singleton_prefix_heard fuel line lines s

theorem Shadows.close (hcalm : s.Calm) (h : Shadows limit reason s s') (failure : Option String) :
    Shadows limit reason (s.close failure) (s'.close failure) := by
  obtain ⟨e, hclose⟩ := s.exists_close failure
  cases id h with
  | along hfits hsame =>
    rw [hclose s.output, hsame, limited, hclose]
    exact .along hfits rfl
  | ended hover _ hend _ =>
    have hclosed : s'.close failure = s' := by simp only [Session.close, hend]
    rw [hclosed, hclose s.output]
    exact h.later hover (hcalm.continues rfl rfl)

/-- Whole sessions side by side. -/
theorem shadows_serve (reason : String) {input : Lines} (h : s.Calm)
    (hfits : s.content.size ≤ limit) (hserve : s.serve fuel input = some t) :
    ∃ t', (s.limited limit reason).serve fuel input = some t' ∧ Shadows limit reason t t' ∧
      (s.limited limit reason).reads fuel input <+: s.reads fuel input := by
  obtain ⟨s₁, hresume, hrest⟩ := resume_of_serve hserve
  obtain ⟨s₁', hresume', hshadow⟩ := shadows_resume reason h hfits hresume
  have hcalm := (h.resume hresume).calm
  cases id hshadow with
  | along hfits₁ hsame =>
    subst hsame
    rcases hrest with ⟨⟨e, hend⟩, rfl⟩ | ⟨hask, hrest⟩
    · obtain ⟨hafter', hreads'⟩ := serve_of_finished hresume' hend input
      refine ⟨_, hafter', hshadow, ?_⟩
      rw [hreads']
      exact List.nil_prefix
    · obtain ⟨t₁, hconverse, rfl⟩ := Option.map_eq_some_iff.1 hrest
      obtain ⟨hafter', hreads'⟩ := serve_of_ask hresume' hask input
      obtain ⟨t₁', hconverse', hshadow', hheard⟩ := shadows_converse reason hcalm hfits₁ hconverse
      refine ⟨t₁'.close input.failure, ?_, ?_, ?_⟩
      · rw [hafter', hconverse', Option.map_some]
      · exact hshadow'.close (hcalm.converse hconverse).calm input.failure
      · rw [(serve_of_ask hresume hask input).2, hreads']
        exact hheard
  | ended hover _ hend' _ =>
    -- this session is over at its first pause, and the other may go on
    obtain ⟨hafter', hreads'⟩ := serve_of_finished hresume' hend' input
    refine ⟨s₁', hafter', ?_, ?_⟩
    · rcases hrest with ⟨-, rfl⟩ | ⟨-, hrest⟩
      · exact hshadow
      · obtain ⟨t₁, hconverse, rfl⟩ := Option.map_eq_some_iff.1 hrest
        obtain ⟨e, hclose⟩ := t₁.exists_close input.failure
        have hlater := hcalm.converse hconverse
        rw [hclose t₁.output]
        exact hshadow.later hover (hlater.trans (hlater.calm.continues rfl rfl))
    · rw [hreads']
      exact List.nil_prefix

end Shadows

/-- Let a session come to its end with a sink that takes everything. With a sink that has a limit
it comes to its end too, and that sink gets the first bytes of what the other gets. No more
instructions are executed and no more lines are read. It ends without an error exactly if the
other does and there is room for everything. -/
theorem serve_keeps_front (machine : Machine) (pipes : PipeTable) (prompting : Bool) (input : Lines)
    (limit : Nat) (reason : String) {fuel : Nat} {s : Session Sink}
    (h : (start machine pipes (.new Sink.unbounded) prompting).serve fuel input = some s) :
    ∃ s', (start machine pipes (.new (Sink.new (some limit) reason)) prompting).serve fuel input =
        some s' ∧
      s'.output.dest.content = firstBytes limit s.output.dest.content ∧
      s'.machine.count ≤ s.machine.count ∧
      (start machine pipes (.new (Sink.new (some limit) reason)) prompting).reads fuel input <+:
        (start machine pipes (.new Sink.unbounded) prompting).reads fuel input ∧
      (start machine pipes (.new Sink.unbounded) prompting).Consumes fuel s input
        ((start machine pipes (.new Sink.unbounded) prompting).reads fuel input) ∧
      (start machine pipes (.new (Sink.new (some limit) reason)) prompting).Consumes fuel s' input
        ((start machine pipes (.new (Sink.new (some limit) reason)) prompting).reads fuel input) ∧
      s.stage = .finished s.error? ∧ s'.stage = .finished s'.error? ∧
      (s'.error? = none ↔ s.error? = none ∧ s.output.dest.content.size ≤ limit) := by
  have hlimited : (start machine pipes (.new Sink.unbounded) prompting).limited limit reason =
      start machine pipes (.new (Sink.new (some limit) reason)) prompting := by
    rw [← Sink.filled_empty]
    rfl
  have hcalm : (start machine pipes (.new Sink.unbounded) prompting).Calm := ⟨.unbounded, rfl, rfl⟩
  obtain ⟨s', hserve, hshadow, hreads⟩ := shadows_serve reason hcalm (Nat.zero_le limit) h
  rw [hlimited] at hserve hreads
  refine ⟨s', hserve, ?_, ?_, hreads, consumes_reads h, consumes_reads hserve, finished_serve h,
    finished_serve hserve, ?_⟩
  · cases hshadow with
    | along _ hsame => rw [hsame]; rfl
    | ended _ _ _ hfront => exact hfront
  · cases hshadow with
    | along _ hsame => exact Nat.le_of_eq (by rw [hsame]; rfl)
    | ended _ hcount _ _ => exact hcount
  · cases hshadow with
    | along hfits hsame =>
      have herror : s'.error? = s.error? := by rw [hsame]; rfl
      rw [herror]
      exact (and_iff_left hfits).symm
    | ended hover _ hend _ =>
      simp only [error?, hend, reduceCtorEq, false_iff, not_and, Nat.not_le]
      exact fun _ => hover

/-- With room for a single byte, a repeater of a queued value and one from the lines gets no
further than its first pause, and no line is read. -/
theorem repeater_full_output :
    ∃ s s', (start (Machine.new "vm" false Rig.repeater 0 1) (lonePipes [5]) (.new Sink.unbounded)
        true).serve 5 (Lines.ofText dialogue none) = some s ∧
      (start (Machine.new "vm" false Rig.repeater 0 1) (lonePipes [5])
        (.new (Sink.new (some 1) "full")) true).serve 5 (Lines.ofText dialogue none) = some s' ∧
      s.output.dest.content = "5\n7\n".toUTF8 ∧ s.error? = none ∧
      s'.output.dest.content = "5".toUTF8 ∧ s'.error? ≠ none ∧
      ((start (Machine.new "vm" false Rig.repeater 0 1) (lonePipes [5]) (.new Sink.unbounded)
        true).reads 5 (Lines.ofText dialogue none)).length = 3 ∧
      (start (Machine.new "vm" false Rig.repeater 0 1) (lonePipes [5])
        (.new (Sink.new (some 1) "full")) true).reads 5 (Lines.ofText dialogue none) = [] := by
  have hends : ((start (Machine.new "vm" false Rig.repeater 0 1) (lonePipes [5])
      (.new Sink.unbounded) true).serve 5 (Lines.ofText dialogue none)).map
        (fun s => (s.output.dest.content, s.error?)) = some ("5\n7\n".toUTF8, none) := by
    decide +kernel
  obtain ⟨s, hserve, hend⟩ := Option.map_eq_some_iff.1 hends
  obtain ⟨hcontent, herror⟩ := Prod.mk.inj hend
  obtain ⟨s', hserve', hfront, -, -, -, -, -, -, hsilent⟩ :=
    serve_keeps_front (Machine.new "vm" false Rig.repeater 0 1) (lonePipes [5]) true
      (Lines.ofText dialogue none) 1 "full" hserve
  rw [hcontent] at hfront hsilent
  refine ⟨s, s', hserve, hserve', hcontent, herror, ?_, ?_, by decide +kernel, by decide +kernel⟩
  · rw [hfront]
    decide +kernel
  · rw [Ne, hsilent]
    intro hboth
    exact absurd hboth.2 (by decide +kernel)

end Session

end CellMachine
