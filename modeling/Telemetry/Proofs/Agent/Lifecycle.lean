import Mathlib.Data.List.Induction
import Telemetry.Proofs.Agent.Work

/-!
# The life of an agent

An agent is fresh until a start builds its pipeline, live from then on until it is stopped, and over
after that. Where it stands can be told from the calls alone (`phaseOf`): starts that cannot build
anything leave it fresh, and later starts and stops change nothing.

A history follows an agent through any calls, one after the other, with anything that timers and
uploads may do between them. It keeps the profilers whose registration was accepted, and every
pipeline that was built. What is known in each phase (`Kept`) is preserved by every call. From this
it follows that there is at most one pipeline, that its profilers are the accepted ones, and that
nobody is heard by an agent that is not live.
-/

namespace Telemetry

namespace Agent

variable {α : Type} [Quantity α]

/-! ## What registrations and starts can do -/

/-- What a start is given. -/
structure Launch where
  config : Config
  host : Host
  /-- whether there is something that can run the timers -/
  runtime : Bool
  moment : Moment

/-- What a start has to say if no other has succeeded. -/
def Launch.verdict (l : Launch) : Except AgentError Unit :=
  if l.runtime then l.config.check.mapError .invalidConfig else .error .noRuntime

/-- Whether a pipeline can be built. -/
def Launch.isViable (l : Launch) : Bool := l.verdict.isOk

theorem Launch.verdict_of_isViable {l : Launch} (h : l.isViable = true) : l.verdict = .ok () := by
  rw [isViable] at h
  cases hverdict : l.verdict with
  | ok _ => rfl
  | error reason =>
    rw [hverdict] at h
    cases h

/-- The pipeline that a start builds. Nothing is built behind the latch. -/
def built? (a : Agent α) (l : Launch) : Option (Pipeline α) :=
  if a.latched then none
  else ({ a with latched := true }.build l.config l.host l.runtime l.moment).1.toOption

/-- An agent that has not been started. -/
def fresh (registrations : List (ProfilerSettings α)) : Agent α := { registrations }

/-- An agent that has been started. -/
def started (p : Pipeline α) : Agent α := { latched := true, pipeline := some p }

theorem start_started (p : Pipeline α) (l : Launch) :
    (started p).start l.config l.host l.runtime l.moment = (.ok (), started p) := rfl

omit [Quantity α] in
theorem register_started (p : Pipeline α) (settings : ProfilerSettings α) :
    (started p).register settings
      = (.error (.registeredAfterStart settings.name), started p) := rfl

theorem build_eq (a : Agent α) (l : Launch) :
    a.build l.config l.host l.runtime l.moment
      = match l.verdict with
        | .ok () =>
          (.ok (.create l.config l.host a.registrations l.moment), { a with registrations := [] })
        | .error reason => (.error reason, a) := by
  obtain ⟨config, host, runtime, moment⟩ := l
  cases runtime with
  | false => rfl
  | true =>
    simp only [build, Launch.verdict, Bool.not_true]
    cases config.check <;> rfl

omit [Quantity α] in
/-- The first pipeline to be published is the one that was built. -/
theorem publish_first (p : Pipeline α) :
    ∃ p', publish { latched := true } p = started p' ∧ p.Works p' :=
  ⟨_, rfl, ⟨((Outlet.Grows.refl p.outlet).info _).continues, rfl⟩, rfl⟩

/-- A start builds a pipeline out of all registrations, or refuses and leaves no trace. -/
theorem start_fresh_cases (registrations : List (ProfilerSettings α)) (l : Launch) :
    (l.isViable = true ∧
      let created := Pipeline.create l.config l.host registrations l.moment
      (fresh registrations).built? l = some created ∧
      ∃ p, (fresh registrations).start l.config l.host l.runtime l.moment
        = (.ok (), started p) ∧ created.Works p) ∨
    (l.isViable = false ∧ (fresh registrations).built? l = none ∧
      ∃ reason, l.verdict = .error reason ∧
        (fresh registrations).start l.config l.host l.runtime l.moment
          = (.error reason, fresh registrations)) := by
  simp only [Launch.isViable, built?, start, fresh, build_eq]
  cases hverdict : l.verdict with
  | error reason => exact .inr ⟨rfl, rfl, reason, rfl, rfl⟩
  | ok _ =>
    obtain ⟨p, hpublish, hworks⟩ :=
      publish_first (Pipeline.create l.config l.host registrations l.moment)
    exact .inl ⟨rfl, rfl, p, Prod.ext rfl hpublish, hworks⟩

omit [Quantity α] in
/-- A registration is kept behind all others, or refused without a trace. -/
theorem register_fresh_cases (registrations : List (ProfilerSettings α))
    (settings : ProfilerSettings α) :
    (settings.check = .ok () ∧
      (fresh registrations).register settings = (.ok (), fresh (registrations ++ [settings]))) ∨
    (∃ reason, settings.check = .error reason ∧
      (fresh registrations).register settings
        = (.error (.invalidProfiler settings.name reason), fresh registrations)) := by
  cases hcheck : settings.check with
  | error reason => exact .inr ⟨reason, rfl, by simp [register, fresh, hcheck]⟩
  | ok _ => exact .inl ⟨rfl, by simp [register, fresh, hcheck]⟩

/-! ## What else can be done with an agent -/

/-- Something that happens to an agent between calls, or in the middle of one. -/
inductive Happening where
  /-- a reporter does what a timer is for; that may come late -/
  | job (reporter : Reporter) (action : Action) (around : Surroundings)
  /-- the messages on their way out get on -/
  | delivery (e : Delivery.Event)

/-- An agent after something has happened to it. -/
def happen (a : Agent α) : Happening → Agent α
  | .job reporter action around =>
    { a with pipeline := a.pipeline.map (·.perform reporter action around) }
  | .delivery e => (a.withDelivery fun d => ((), d.after e)).2

/-- What a stop meets on its way. -/
structure Stop where
  /-- what happens while the timers are cancelled -/
  cancelling : List Happening
  around : Surroundings
  /-- what happens between the reports and the close -/
  closing : List Happening
  /-- what happens during the last upload -/
  uploading : List Happening
  /-- how the last upload ends, if it does -/
  outcome : Option (Except Delivery.UploadError Nat)

/-- An agent after a stop. -/
def stop (a : Agent α) (s : Stop) : Agent α :=
  if a.isRunning then
    let a := (s.cancelling.foldl happen a).reportNow s.around
    let a := (s.closing.foldl happen a).close
    let a := s.uploading.foldl happen a
    s.outcome.elim a a.concludeStop
  else a

/-- Something that is asked of an agent, or happens to it meanwhile. -/
inductive Call (α : Type) where
  | register (settings : ProfilerSettings α)
  | start (l : Launch)
  | segment (name : String) (duration : α) (slot : Nat)
  | error (group message : String)
  | takeLatest
  | reportNow (around : Surroundings)
  | stop (s : Stop)
  | meanwhile (h : Happening)

/-- An agent after a call. -/
def after (a : Agent α) : Call α → Agent α
  | .register settings => (a.register settings).2
  | .start l => (a.start l.config l.host l.runtime l.moment).2
  | .segment name duration slot => a.recordSegment name duration slot
  | .error group message => a.recordError group message
  | .takeLatest => a.takeLatest.2
  | .reportNow around => a.reportNow around
  | .stop s => a.stop s
  | .meanwhile h => a.happen h

/-- The calls that are for live agents only. -/
def Call.forLive : Call α → Bool
  | .segment _ _ _ | .error _ _ | .takeLatest | .reportNow _ | .stop _ => true
  | .register _ | .start _ | .meanwhile _ => false

/-- Whether a call is a stop. -/
def Call.isStop : Call α → Bool
  | .stop _ => true
  | _ => false

omit [Quantity α] in
/-- An agent is live until its pipeline is closed. -/
theorem live?_started (p : Pipeline α) :
    (started p).live? = if p.stopped then none else some p := by
  rw [started, live?, Option.filter_some]
  cases p.stopped <;> rfl

omit [Quantity α] in
theorem whenLive_started (p : Pipeline α) (f : Pipeline α → Pipeline α) :
    (started p).whenLive f = started (if p.stopped then p else f p) := by
  rw [whenLive, live?_started]
  cases p.stopped <;> rfl

omit [Quantity α] in
theorem isRunning_started (p : Pipeline α) : (started p).isRunning = !p.stopped := by
  rw [isRunning, live?_started]
  cases p.stopped <;> rfl

omit [Quantity α] in
/-- What a live agent does is work. -/
theorem whenLive_works (p : Pipeline α) (f : Pipeline α → Pipeline α) (hf : p.Works (f p)) :
    ∃ p', (started p).whenLive f = started p' ∧ p.Works p' := by
  refine ⟨_, whenLive_started p f, ?_⟩
  cases p.stopped with
  | true => exact .refl p
  | false => exact hf

theorem happen_started (p : Pipeline α) (h : Happening) :
    ∃ p', (started p).happen h = started p' ∧ p.Works p' := by
  cases h with
  | job reporter action around => exact ⟨_, rfl, (p.grows_perform reporter action around).works⟩
  | delivery e => exact ⟨_, rfl, p.works_after e⟩

theorem foldl_happen_started (p : Pipeline α) (hs : List Happening) :
    ∃ p', hs.foldl happen (started p) = started p' ∧ p.Works p' := by
  induction hs generalizing p with
  | nil => exact ⟨p, rfl, .refl p⟩
  | cons h rest ih =>
    obtain ⟨p₁, hfirst, hworks⟩ := happen_started p h
    obtain ⟨p₂, hrest, hothers⟩ := ih p₁
    exact ⟨p₂, by rw [List.foldl_cons, hfirst, hrest], hworks.trans hothers⟩

/-- A stop closes the pipeline of a live agent. -/
theorem stop_started (p : Pipeline α) (s : Stop) :
    ∃ p', (started p).stop s = started p' ∧ p.Continues p' ∧ p'.stopped = true := by
  cases hstopped : p.stopped with
  | true => exact ⟨p, by rw [stop, isRunning_started, hstopped]; rfl, .refl p, hstopped⟩
  | false =>
    obtain ⟨p₁, hcancelling, hworks₁⟩ := foldl_happen_started p s.cancelling
    obtain ⟨p₂, hreport, hworks₂⟩ := whenLive_works p₁ (·.reportAll s.around)
      (p₁.grows_reportAll s.around).works
    obtain ⟨p₃, hclosing, hworks₃⟩ := foldl_happen_started p₂ s.closing
    have hopen : p₃.stopped = false := by
      rw [hworks₃.stopped, hworks₂.stopped, hworks₁.stopped, hstopped]
    have hclose : (started p₃).close = started { p₃ with stopped := true } := by
      rw [close, whenLive_started, hopen]
      rfl
    obtain ⟨p₄, huploading, hworks₄⟩ :=
      foldl_happen_started { p₃ with stopped := true } s.uploading
    have hcontinues : p.Continues p₄ :=
      ((hworks₁.trans hworks₂).trans hworks₃).toContinues.trans
        ((Pipeline.Continues.close p₃).trans hworks₄.toContinues)
    have hstop : (started p).stop s = s.outcome.elim (started p₄) (started p₄).concludeStop := by
      rw [stop, isRunning_started, hstopped]
      simp only [hcancelling, reportNow, hreport, hclosing, hclose, huploading]
      rfl
    cases houtcome : s.outcome with
    | none => exact ⟨p₄, by rw [hstop, houtcome]; rfl, hcontinues, hworks₄.stopped⟩
    | some outcome =>
      have hworks₅ := (p₄.grows_concludeStop outcome).works
      exact ⟨p₄.concludeStop outcome, by rw [hstop, houtcome]; rfl,
        hcontinues.trans hworks₅.toContinues, hworks₅.stopped.trans hworks₄.stopped⟩

/-- Whatever is asked of an agent that has been started, its pipeline goes on, and only a stop
closes it. -/
theorem after_started (p : Pipeline α) (c : Call α) :
    ∃ p', (started p).after c = started p' ∧ p.Continues p' ∧
      p'.stopped = (p.stopped || c.isStop) := by
  -- what does not stop the agent is work
  have hworking : c.isStop = false → (∃ p', (started p).after c = started p' ∧ p.Works p') →
      ∃ p', (started p).after c = started p' ∧ p.Continues p' ∧
        p'.stopped = (p.stopped || c.isStop) := by
    rintro hgoes ⟨p', hafter, hworks⟩
    exact ⟨p', hafter, hworks.toContinues, by rw [hgoes, Bool.or_false, hworks.stopped]⟩
  cases c with
  | register settings => exact hworking rfl ⟨p, rfl, .refl p⟩
  | start l => exact hworking rfl ⟨p, rfl, .refl p⟩
  | segment name duration slot =>
    exact hworking rfl (whenLive_works p _ (p.grows_recordSegment name duration slot).works)
  | error group message =>
    exact hworking rfl (whenLive_works p _ (p.grows_recordError group message).works)
  | reportNow around => exact hworking rfl (whenLive_works p _ (p.grows_reportAll around).works)
  | meanwhile h => exact hworking rfl (happen_started p h)
  | takeLatest =>
    refine hworking rfl ?_
    rw [after, takeLatest, live?_started]
    cases p.stopped with
    | true => exact ⟨p, rfl, .refl p⟩
    | false => exact ⟨_, rfl, ⟨.refl p.outlet, rfl⟩, rfl⟩
  | stop s =>
    obtain ⟨p', hafter, hcontinues, hstopped⟩ := stop_started p s
    exact ⟨p', hafter, hcontinues, by rw [hstopped, Call.isStop, Bool.or_true]⟩

theorem happen_fresh (registrations : List (ProfilerSettings α)) (h : Happening) :
    (fresh registrations).happen h = fresh registrations := by
  cases h <;> rfl

/-- A call for live agents does nothing to one that is fresh. -/
theorem after_fresh_of_forLive (registrations : List (ProfilerSettings α)) {c : Call α}
    (hc : c.forLive = true) : (fresh registrations).after c = fresh registrations := by
  cases c <;> first | rfl | cases hc

/-- A call for live agents does nothing to one whose pipeline is closed. -/
theorem after_stopped_of_forLive {p : Pipeline α} (hp : p.stopped = true) {c : Call α}
    (hc : c.forLive = true) : (started p).after c = started p := by
  have hidle : ∀ f, (started p).whenLive f = started p := by
    intro f
    rw [whenLive_started, hp, if_pos rfl]
  cases c with
  | segment name duration slot => exact hidle _
  | error group message => exact hidle _
  | reportNow around => exact hidle _
  | takeLatest =>
    rw [after, takeLatest, live?_started, hp]
    rfl
  | stop s =>
    rw [after, stop, isRunning_started, hp]
    rfl
  | register settings => cases hc
  | start l => cases hc
  | meanwhile h => cases hc

/-! ## Histories -/

/-- Where an agent stands in its life. -/
inductive Phase where
  | fresh
  | live
  | over
  deriving DecidableEq

/-- The phase after a call. -/
def Phase.next : Phase → Call α → Phase
  | .fresh, .start l => if l.isViable then .live else .fresh
  | .live, .stop _ => .over
  | phase, _ => phase

/-- The phase after some calls. -/
def phaseOf (calls : List (Call α)) : Phase := calls.foldl Phase.next .fresh

/-- What the starts among some calls were given. -/
def launches (calls : List (Call α)) : List Launch :=
  calls.filterMap fun c =>
    match c with
    | .start l => some l
    | _ => none

/-- An agent with what came of the calls. -/
structure History (α : Type) where
  agent : Agent α := create
  /-- the profilers whose registration was accepted, in this order -/
  accepted : List (ProfilerSettings α) := []
  /-- the pipelines that were built -/
  built : List (Pipeline α) := []

namespace History

/-- The profilers that a call registers, which is at most one. -/
def accepts (a : Agent α) : Call α → List (ProfilerSettings α)
  | .register settings =>
    match (a.register settings).1 with
    | .ok () => [settings]
    | .error _ => []
  | _ => []

/-- The pipelines that a call builds, which is at most one. -/
def builds (a : Agent α) : Call α → List (Pipeline α)
  | .start l => (a.built? l).toList
  | _ => []

/-- The next call. -/
def next (h : History α) (c : Call α) : History α :=
  { agent := h.agent.after c, accepted := h.accepted ++ accepts h.agent c
    built := h.built ++ builds h.agent c }

/-- An agent from its creation. -/
def of (calls : List (Call α)) : History α := calls.foldl next {}

theorem of_concat (calls : List (Call α)) (c : Call α) :
    (of (calls ++ [c]) : History α) = (of calls).next c := by
  rw [of, of, List.foldl_append]
  rfl

/-- What holds throughout a life. -/
inductive Kept (calls : List (Call α)) : History α → Prop where
  /-- nothing is known but the profilers that were accepted -/
  | fresh {accepted : List (ProfilerSettings α)}
      (hphase : phaseOf calls = .fresh)
      (hlaunch : (launches calls).find? Launch.isViable = none) :
      Kept calls { agent := .fresh accepted, accepted, built := [] }
  /-- they have all gone into the pipeline of the first start that could build one -/
  | started {accepted : List (ProfilerSettings α)} {l : Launch} {p : Pipeline α}
      (hphase : phaseOf calls = if p.stopped then .over else .live)
      (hlaunch : (launches calls).find? Launch.isViable = some l)
      (hcontinues : (Pipeline.create l.config l.host accepted l.moment).Continues p) :
      Kept calls
        { agent := .started p, accepted
          built := [.create l.config l.host accepted l.moment] }

variable {calls : List (Call α)} {h : History α} {p : Pipeline α}

/-- A call for live agents comes to nothing if the agent is the same afterwards. -/
theorem next_of_forLive {c : Call α} (hc : c.forLive = true)
    (hafter : h.agent.after c = h.agent) : h.next c = h := by
  have hnone : accepts h.agent c = [] ∧ builds h.agent c = [] := by
    cases c <;> first | exact ⟨rfl, rfl⟩ | cases hc
  rw [next, hafter, hnone.1, hnone.2, List.append_nil, List.append_nil]

omit [Quantity α] in
theorem accepts_started (p : Pipeline α) (c : Call α) : accepts (started p) c = [] := by
  cases c <;> rfl

theorem builds_started (p : Pipeline α) (c : Call α) : builds (started p) c = [] := by
  cases c <;> rfl

theorem Kept.next (hk : Kept calls h) (c : Call α) : Kept (calls ++ [c]) (h.next c) := by
  have hphase : phaseOf (calls ++ [c]) = (phaseOf calls).next c := List.foldl_append
  have hlaunch : (launches (calls ++ [c])).find? Launch.isViable
      = ((launches calls).find? Launch.isViable).or ((launches [c]).find? Launch.isViable) := by
    rw [launches, List.filterMap_append, List.find?_append]
    rfl
  cases hk with
  | started hover hfound hcontinues =>
    rename_i accepted l p
    obtain ⟨p', hafter, hgoes, hstopped⟩ := after_started p c
    simp only [History.next, hafter, accepts_started, builds_started, List.append_nil]
    refine .started ?_ (by rw [hlaunch, hfound, Option.some_or]) (hcontinues.trans hgoes)
    rw [hphase, hover, hstopped]
    cases p.stopped <;> cases c <;> rfl
  | fresh hfresh hnone =>
    rename_i accepted
    rw [hfresh] at hphase
    rw [hnone, Option.none_or] at hlaunch
    cases c with
    | register settings =>
      obtain ⟨-, hregister⟩ | ⟨reason, -, hregister⟩ := register_fresh_cases accepted settings
      · simp only [History.next, after, accepts, builds, hregister, List.append_nil]
        exact .fresh hphase hlaunch
      · simp only [History.next, after, accepts, builds, hregister, List.append_nil]
        exact .fresh hphase hlaunch
    | start l =>
      simp only [Phase.next] at hphase
      obtain ⟨hviable, hbuilt, p, hstart, hworks⟩ | ⟨hrefused, hbuilt, reason, -, hstart⟩ :=
        start_fresh_cases accepted l
      · simp only [History.next, after, accepts, builds, hstart, hbuilt, List.append_nil,
          List.nil_append, Option.toList_some]
        refine .started ?_ ?_ hworks.toContinues
        · rw [hphase, hviable, hworks.stopped]
          rfl
        · rw [hlaunch]
          exact List.find?_cons_of_pos hviable
      · simp only [History.next, after, accepts, builds, hstart, hbuilt, List.append_nil,
          Option.toList_none]
        refine .fresh ?_ ?_
        · rw [hphase, hrefused]
          rfl
        · rw [hlaunch]
          exact List.find?_cons_of_neg (by simp [hrefused])
    | meanwhile happening =>
      simp only [History.next, after, accepts, builds, happen_fresh, List.append_nil]
      exact .fresh hphase hlaunch
    | _ =>
      rw [next_of_forLive rfl (after_fresh_of_forLive accepted rfl)]
      exact .fresh hphase hlaunch

theorem kept_of (calls : List (Call α)) : Kept calls (of calls) := by
  induction calls using List.reverseRecOn with
  | nil => exact .fresh rfl rfl
  | append_singleton calls c ih =>
    rw [of_concat]
    exact ih.next c

/-- What a started agent does afterwards is done by the pipeline it has. -/
theorem of_append_of_started (hagent : (of calls : History α).agent = .started p)
    (more : List (Call α)) :
    (of (calls ++ more) : History α).built = (of calls : History α).built ∧
      (of (calls ++ more) : History α).accepted = (of calls : History α).accepted ∧
      ∃ p', (of (calls ++ more)).agent = .started p' ∧ p.Continues p' := by
  induction more using List.reverseRecOn with
  | nil =>
    rw [List.append_nil]
    exact ⟨rfl, rfl, p, hagent, .refl p⟩
  | append_singleton more c ih =>
    obtain ⟨hbuilt, haccepted, p', hstarted, hcontinues⟩ := ih
    obtain ⟨p'', hafter, hgoes, -⟩ := after_started p' c
    rw [← List.append_assoc, of_concat, next, hstarted, hafter, accepts_started, builds_started,
      hbuilt, haccepted, List.append_nil, List.append_nil]
    exact ⟨rfl, rfl, p'', rfl, hcontinues.trans hgoes⟩

/-- A call that comes to nothing might as well not have been made. -/
theorem of_append_cons_of_next_eq {c : Call α} (hnext : (of calls : History α).next c = of calls)
    (more : List (Call α)) : (of (calls ++ c :: more) : History α) = of (calls ++ more) := by
  rw [of, List.foldl_append, List.foldl_cons, ← of, hnext, of, of, List.foldl_append]

end History

/-! ## The main result -/

/-- What can be relied on after some calls, and after any more of them. -/
structure Lawful (calls : List (Call α)) (h : History α) : Prop where
  /-- whether the agent runs can be told from the calls -/
  running : h.agent.isRunning = true ↔ phaseOf calls = .live
  /-- the first start that can build a pipeline does so, and no other -/
  built : h.built = ((launches calls).find? Launch.isViable).toList.map fun l =>
    .create l.config l.host h.accepted l.moment
  /-- until then an agent is what the accepted registrations have made of it -/
  waiting : h.built = [] → h.agent = fresh h.accepted
  /-- afterwards it has what was built, and the profilers are the accepted ones -/
  published : ∀ created ∈ h.built, ∃ p, h.agent = started p ∧ created.Continues p ∧
    p.profilers.map Profiler.settings = h.accepted
  /-- the pipeline is never replaced by another -/
  lasting : ∀ p, h.agent.pipeline = some p → ∀ more,
    (History.of (calls ++ more)).built = h.built ∧
    (History.of (calls ++ more)).agent.runId? = h.agent.runId? ∧
    ∃ p', (History.of (calls ++ more)).agent.pipeline = some p' ∧ p.Continues p'
  /-- until there is one, a start succeeds if it can build it -/
  answered : h.built = [] → ∀ l : Launch,
    (h.agent.start l.config l.host l.runtime l.moment).1 = l.verdict
  /-- a start that fails leaves the agent exactly as it was -/
  failed : ∀ (l : Launch) (reason : AgentError),
    (h.agent.start l.config l.host l.runtime l.moment).1 = .error reason →
      (h.agent.start l.config l.host l.runtime l.moment).2 = h.agent
  /-- once there is a pipeline, every start succeeds and changes nothing -/
  settled : h.built ≠ [] → ∀ l : Launch,
    h.agent.start l.config l.host l.runtime l.moment = (.ok (), h.agent)
  /-- settings that do not pass their check are not kept -/
  refused : ∀ (settings : ProfilerSettings α) (reason : SettingsError),
    settings.check = .error reason →
      (h.agent.register settings).1.isOk = false ∧ (h.agent.register settings).2 = h.agent
  /-- once there is a pipeline, nothing can be registered -/
  late : h.built ≠ [] → ∀ settings : ProfilerSettings α, h.agent.register settings
    = (.error (.registeredAfterStart settings.name), h.agent)
  /-- who is not live hears nothing: the call might as well not have been made -/
  unheard : phaseOf calls ≠ .live → ∀ c : Call α, c.forLive = true → ∀ more,
    History.of (calls ++ c :: more) = History.of (calls ++ more)

variable {calls : List (Call α)}

theorem lawful_of_fresh {accepted : List (ProfilerSettings α)}
    (hof : History.of calls = { agent := fresh accepted, accepted, built := [] })
    (hphase : phaseOf calls = .fresh)
    (hlaunch : (launches calls).find? Launch.isViable = none) :
    Lawful calls { agent := fresh accepted, accepted, built := [] } where
  running := by
    rw [hphase]
    constructor
    · rintro ⟨⟩
    · rintro ⟨⟩
  built := by rw [hlaunch]; rfl
  waiting := fun _ => rfl
  published := fun created hmem => absurd hmem List.not_mem_nil
  lasting := fun p hp => nomatch hp
  answered := by
    intro _ l
    obtain ⟨hviable, -, p, hstart, -⟩ | ⟨-, -, reason, hverdict, hstart⟩ :=
      start_fresh_cases accepted l
    · rw [hstart, Launch.verdict_of_isViable hviable]
    · rw [hstart, hverdict]
  failed := by
    intro l reason hfailed
    obtain ⟨-, -, p, hstart, -⟩ | ⟨-, -, other, -, hstart⟩ := start_fresh_cases accepted l
    · rw [hstart] at hfailed
      cases hfailed
    · rw [hstart]
  settled := fun hbuilt => absurd rfl hbuilt
  refused := by
    intro settings reason hcheck
    obtain ⟨hok, -⟩ | ⟨other, -, hregister⟩ := register_fresh_cases accepted settings
    · rw [hcheck] at hok
      cases hok
    · rw [hregister]
      exact ⟨rfl, rfl⟩
  late := fun hbuilt => absurd rfl hbuilt
  unheard := by
    intro _ c hc more
    refine History.of_append_cons_of_next_eq ?_ more
    rw [hof]
    exact History.next_of_forLive hc (after_fresh_of_forLive accepted hc)

theorem lawful_of_started {accepted : List (ProfilerSettings α)} {l : Launch} {p : Pipeline α}
    (hof : History.of calls
      = { agent := started p, accepted
          built := [.create l.config l.host accepted l.moment] })
    (hphase : phaseOf calls = if p.stopped then .over else .live)
    (hlaunch : (launches calls).find? Launch.isViable = some l)
    (hcontinues : (Pipeline.create l.config l.host accepted l.moment).Continues p) :
    Lawful calls
      { agent := started p, accepted
        built := [.create l.config l.host accepted l.moment] } where
  running := by
    rw [hphase, isRunning_started]
    cases p.stopped <;> simp
  built := by rw [hlaunch]; rfl
  waiting := fun hnone => absurd hnone (List.cons_ne_nil _ _)
  published := by
    intro created hmem
    obtain rfl := List.mem_singleton.mp hmem
    refine ⟨p, rfl, hcontinues, ?_⟩
    rw [hcontinues.settings, Pipeline.create, List.map_map]
    exact List.map_id accepted
  lasting := by
    rintro _ ⟨⟩ more
    have hagent : (History.of calls : History α).agent = started p := by rw [hof]
    obtain ⟨hbuilt, -, p', hstarted, hgoes⟩ := History.of_append_of_started hagent more
    rw [hof] at hbuilt
    refine ⟨hbuilt, ?_, p', by rw [hstarted]; rfl, hgoes⟩
    rw [hstarted]
    exact congrArg some (congrArg Delivery.Envelope.runId hgoes.outlet.delivery.envelope)
  answered := fun hnone => absurd hnone (List.cons_ne_nil _ _)
  failed := fun other _ _ => congrArg Prod.snd (start_started p other)
  settled := fun _ other => start_started p other
  refused := fun settings reason _ => ⟨rfl, rfl⟩
  late := fun _ settings => register_started p settings
  unheard := by
    intro hdead c hc more
    have hstopped : p.stopped = true := by
      cases hp : p.stopped with
      | true => rfl
      | false =>
        rw [hphase, hp] at hdead
        exact absurd rfl hdead
    refine History.of_append_cons_of_next_eq ?_ more
    rw [hof]
    exact History.next_of_forLive hc (after_stopped_of_forLive hstopped hc)

/-- Every life is lawful: whatever is asked of an agent, in any order and with anything happening in
between, there is at most one pipeline. -/
theorem lifecycle (calls : List (Call α)) : Lawful calls (History.of calls) := by
  have hk := History.kept_of calls
  generalize hof : History.of calls = h at hk
  cases hk with
  | fresh hphase hlaunch => exact lawful_of_fresh hof hphase hlaunch
  | started hphase hlaunch hcontinues => exact lawful_of_started hof hphase hlaunch hcontinues

end Agent

end Telemetry
