import CursorScript.Proofs.Configuration
import CursorScript.Run

/-!
The life of a run. A host may start a run, give it ticks and stop it, in any order and as often as
it likes. `Does` says once what each of these calls can do; that a run goes through its states in
order, keeps the error that ended it and no other, and is left alone once it has ended, follows by
cases on it.
-/
namespace CursorScript

/-- How the state of a run may differ after a call. -/
inductive RunState.Moves : RunState → RunState → Prop
  | stay (state : RunState) : Moves state state
  | start : Moves .notStarted .running
  | refuse : Moves .notStarted .stopped
  | finish : Moves .running .finished
  | stop : Moves .running .stopped

namespace Run
open Machine (Reaches)

inductive Call where
  | start (library : Library) (file : FileContent)
  | tick (allowance : Nat)
  | stop

def Call.isStart : Call → Bool
  | start .. => true
  | _ => false

def refusal {α : Type} : Except Error α → Option Error
  | .ok _ => none
  | .error e => some e

def answer (r : Run) : Call → Option Error × Run
  | .start library file => (refusal (r.start library file).1, (r.start library file).2)
  | .tick n => (refusal (r.tick n).1, (r.tick n).2)
  | .stop => (none, r.stop)

def after (r : Run) (calls : List Call) : Run := calls.foldl (fun r call => (r.answer call).2) r

inductive Does (r : Run) : Call → Option Error → Run → Prop
  | refuse {library : Library} {file : FileContent} {e : Error} (late : r.state ≠ .notStarted) :
      Does r (.start library file) (some e) r
  | failStart {library : Library} {file : FileContent} {e : Error} (source : Option String)
      (fresh : r.state = .notStarted) :
      Does r (.start library file) (some e) ({ r with source := source }.failed e)
  | begin {library : Library} {file : FileContent} {source : String} {machine : Machine}
      (fresh : r.state = .notStarted) : Does r (.start library file) none
        { r with source := some source, machine := some machine, state := .running }
  | idle {n : Nat} (still : r.state ≠ .running) : Does r (.tick n) none r
  | rest {n : Nat} (running : r.state = .running) :
      Does r (.tick n) none { r with ticks := r.ticks + 1 }
  | lost {n : Nat} {e : Error} (running : r.state = .running) (missing : r.machine = none) :
      Does r (.tick n) (some e) ({ r with ticks := r.ticks + 1 }.failed e)
  | work {n : Nat} {machine m : Machine} {c : Context} (call : Option String)
      (running : r.state = .running) (present : r.machine = some machine)
      (reached : Reaches (machine, r.context) (m, c)) : Does r (.tick n) none
        { r with
          ticks := r.ticks + 1
          machine := some m
          context := c
          lastCall := call
          state := if m.isFinished then .finished else .running }
  | failStep {n : Nat} {machine m m' : Machine} {c c' : Context} {e : Error}
      (running : r.state = .running) (present : r.machine = some machine)
      (reached : Reaches (machine, r.context) (m, c)) (fault : m.step c = ⟨.error e, m', c'⟩) :
      Does r (.tick n) (some e)
        ({ r with ticks := r.ticks + 1, machine := some m', context := c' }.failed e)
  | halt (active : r.isActive = true) : Does r .stop none { r with state := .stopped }
  | haltLate (inactive : r.isActive = false) : Does r .stop none r

/-- Items of work are steps, the last of which may fail. -/
theorem runItems_cases (animated : Bool) (n : Nat) (m : Machine) (c : Context) :
    (∃ call m' c', runItems animated n m c = ⟨.ok call, m', c'⟩ ∧ Reaches (m, c) (m', c')) ∨
    ∃ e before inside m' c', runItems animated n m c = ⟨.error e, m', c'⟩ ∧
      Reaches (m, c) (before, inside) ∧ before.step inside = ⟨.error e, m', c'⟩ := by
  induction n generalizing m c with
  | zero => exact .inl ⟨none, m, c, rfl, .refl⟩
  | succ n ih =>
    by_cases done : m.isFinished = true
    · exact .inl ⟨none, m, c, by simp [runItems, done], .refl⟩
    · obtain ⟨outcome, m₁, c₁, stepped⟩ : ∃ outcome m₁ c₁, m.step c = ⟨outcome, m₁, c₁⟩ :=
        ⟨_, _, _, rfl⟩
      have later : ∀ call, outcome = .ok call →
          (∃ call m' c', runItems animated n m₁ c₁ = ⟨.ok call, m', c'⟩ ∧
            Reaches (m, c) (m', c')) ∨
          ∃ e before inside m' c', runItems animated n m₁ c₁ = ⟨.error e, m', c'⟩ ∧
            Reaches (m, c) (before, inside) ∧ before.step inside = ⟨.error e, m', c'⟩ := by
        intro call fine
        have next : Machine.Next (m, c) (m₁, c₁) := ⟨call, by rw [stepped, fine]⟩
        rcases ih m₁ c₁ with ⟨call', m', c', ran, reached⟩ | ⟨e, b, i, m', c', ran, reached, fault⟩
        · exact .inl ⟨call', m', c', ran, .head next reached⟩
        · exact .inr ⟨e, b, i, m', c', ran, .head next reached, fault⟩
      simp only [runItems, done, stepped, Bool.false_eq_true, if_false]
      cases outcome with
      | error e => exact .inr ⟨e, m, c, m₁, c₁, rfl, .refl, stepped⟩
      | ok call =>
        have going := later call rfl
        cases call with
        | none => exact going
        | some text =>
          by_cases animation : animated = true
          · have next : Machine.Next (m, c) (m₁, c₁) := ⟨some text, stepped⟩
            exact .inl ⟨some text, m₁, c₁, by simp [animation], .single next⟩
          · simpa [animation] using going

theorem does_start (r : Run) (library : Library) (file : FileContent) :
    r.Does (.start library file) (refusal (r.start library file).1) (r.start library file).2 := by
  unfold start
  split
  · next late => exact .refuse late
  · next fresh =>
    have fresh : r.state = .notStarted := by simpa using fresh
    split
    · exact .failStart r.source fresh
    · dsimp only
      split
      · exact .failStart _ fresh
      · exact .begin fresh

theorem does_tick (r : Run) (n : Nat) : r.Does (.tick n) (refusal (r.tick n).1) (r.tick n).2 := by
  unfold tick
  split
  · next still => exact .idle still
  · next running =>
    have running : r.state = .running := by simpa using running
    dsimp only
    split
    · exact .rest running
    · split
      · next missing => exact .lost running missing
      · next machine present =>
        rcases runItems_cases r.animation.isSome (max n 1) machine r.context with
          ⟨call, m, c, ran, reached⟩ | ⟨e, b, i, m, c, ran, reached, fault⟩
        · have worked := Does.work (n := n) (call.or r.lastCall) running present reached
          by_cases done : m.isFinished = true
          · simpa [ran, settle, done, refusal] using worked
          · simpa [ran, settle, done, refusal, running] using worked
        · have failed := Does.failStep (n := n) running present reached fault
          simpa [ran, settle, refusal] using failed

theorem does_answer (r : Run) (call : Call) : r.Does call (r.answer call).1 (r.answer call).2 := by
  cases call with
  | start library file => exact r.does_start library file
  | tick n => exact r.does_tick n
  | stop =>
    by_cases active : r.isActive = true
    · simpa [answer, stop, active] using Does.halt active
    · have inactive : r.isActive = false := by simpa using active
      simpa [answer, stop, inactive] using Does.haltLate inactive

section calls
variable {r r' : Run} {call : Call} {answered : Option Error}

theorem isActive_iff : r.isActive = true ↔ r.state = .notStarted ∨ r.state = .running := by
  unfold isActive
  cases r.state <;> simp

theorem Does.moves (h : r.Does call answered r') : r.state.Moves r'.state := by
  cases h with
  | refuse | idle | haltLate => exact .stay _
  | failStart _ fresh =>
    rw [fresh]
    exact .refuse
  | begin fresh =>
    rw [fresh]
    exact .start
  | rest running => exact .stay _
  | lost running _ =>
    rw [running]
    exact .stop
  | @work _ _ m _ _ running _ _ =>
    rw [running]
    cases done : m.isFinished with
    | true => simpa [done] using RunState.Moves.finish
    | false => simpa [done] using RunState.Moves.stay .running
  | failStep running _ _ _ =>
    rw [running]
    exact .stop
  | halt active =>
    rcases isActive_iff.1 active with fresh | running
    · rw [fresh]
      exact .refuse
    · rw [running]
      exact .stop

/-- A run that has ended is left as it is, and only a start is refused. -/
theorem Does.ended (h : r.Does call answered r') (ended : r.isActive = false) :
    r' = r ∧ (answered.isSome = true ↔ call.isStart = true) := by
  have fresh : r.state ≠ .notStarted := fun fresh => by simp [isActive, fresh] at ended
  have still : r.state ≠ .running := fun running => by simp [isActive, running] at ended
  cases h with
  | refuse => simp [Call.isStart]
  | idle | haltLate => simp [Call.isStart]
  | failStart _ first | begin first => exact absurd first fresh
  | rest running | lost running _ | work _ running _ _ | failStep running _ _ _ =>
    exact absurd running still
  | halt active => simp [active] at ended

structure Coherent (r : Run) : Prop where
  running : r.state = .running → r.machine.isSome = true
  finished : r.state = .finished → ∃ m, r.machine = some m ∧ m.isFinished = true
  failed : r.error.isSome = true → r.state = .stopped

theorem Does.coherent (h : r.Does call answered r') (good : r.Coherent) : r'.Coherent := by
  have fine : r.state = .running → r.error = none := by
    intro running
    cases kept : r.error with
    | none => rfl
    | some e =>
      have stopped := good.failed (by simp [kept])
      simp [running] at stopped
  cases h with
  | refuse | idle | haltLate => exact good
  | failStart | lost | failStep => exact ⟨by simp [failed], by simp [failed], by simp [failed]⟩
  | begin fresh =>
    refine ⟨by simp, by simp, fun kept => ?_⟩
    have stopped := good.failed kept
    simp [fresh] at stopped
  | rest running => exact ⟨good.running, good.finished, good.failed⟩
  | @work _ _ m _ _ running _ _ =>
    refine ⟨by simp, fun done => ⟨m, rfl, ?_⟩, by simp [fine running]⟩
    cases finished : m.isFinished with
    | true => rfl
    | false => simp [finished] at done
  | halt => exact ⟨by simp, by simp, by simp⟩

/-- What ends a run by an error: a start that fails, or an item of work that does in a tick. -/
inductive Fault (r : Run) (e : Error) : Call → Prop
  | start {library : Library} {file : FileContent} (fresh : r.state = .notStarted) :
      Fault r e (.start library file)
  | step {n : Nat} {machine m : Machine} {c : Context} (running : r.state = .running)
      (present : r.machine = some machine) (reached : Reaches (machine, r.context) (m, c))
      (fault : (m.step c).outcome = .error e) : Fault r e (.tick n)

/-- A run has an error after a call if it had it before, or if the call was a fault and answered
with it. -/
theorem Does.error (h : r.Does call answered r') (good : r.Coherent) (e : Error) :
    r'.error = some e ↔ r.error = some e ∨ answered = some e ∧ r.Fault e call := by
  have fine : r.isActive = true → r.error = none := by
    intro active
    cases kept : r.error with
    | none => rfl
    | some e =>
      have stopped := good.failed (by simp [kept])
      simp [isActive, stopped] at active
  cases h with
  | refuse late =>
    refine ⟨.inl, ?_⟩
    rintro (kept | ⟨_, ⟨fresh⟩⟩)
    · exact kept
    · exact absurd fresh late
  | failStart _ fresh =>
    have fine := fine (by simp [isActive, fresh])
    simpa [failed, fine] using fun _ => Fault.start fresh
  | lost running missing =>
    have present := good.running running
    simp [missing] at present
  | failStep running present reached fault =>
    have fine := fine (by simp [isActive, running])
    simp only [failed, fine, reduceCtorEq, false_or, Option.some.injEq]
    refine ⟨fun same => ⟨same, .step running present reached ?_⟩, And.left⟩
    rw [fault, same]
  | begin | idle | rest | work | halt | haltLate => simp

/-- A run that a tick takes out of `running` has come to its end or failed. -/
theorem Does.leaves {n : Nat} (h : r.Does (.tick n) answered r') (good : r.Coherent)
    (running : r.state = .running) (left : r'.state ≠ .running) :
    r'.state = .finished ∧ r'.error = none ∨
      r'.state = .stopped ∧ ∃ e, answered = some e ∧ r'.error = some e := by
  have good' := h.coherent good
  cases h with
  | idle still => exact absurd running still
  | rest => exact absurd running left
  | lost | failStep => exact .inr ⟨rfl, _, rfl, rfl⟩
  | @work _ _ m _ _ _ _ _ =>
    have finished : m.isFinished = true := by simpa using left
    refine .inl ⟨by simp [finished], ?_⟩
    cases kept : r.error with
    | none => rfl
    | some e =>
      have stopped := good'.failed (by simp [kept])
      simp [finished] at stopped

theorem Does.start_keeps {library : Library} {file : FileContent}
    (h : r.Does (.start library file) answered r') :
    r'.context = r.context ∧ r'.ticks = r.ticks := by
  cases h <;> exact ⟨rfl, rfl⟩

end calls

theorem coherent_new (path stamp : String) (options : RunOptions) (config : RunConfig) :
    (new path stamp options config).Coherent := ⟨by simp [new], by simp [new], by simp [new]⟩

theorem coherent_after {r : Run} (good : r.Coherent) (calls : List Call) :
    (r.after calls).Coherent := by
  induction calls generalizing r with
  | nil => exact good
  | cons call rest ih => exact ih ((r.does_answer call).coherent good)

/-- The error of a run is the answer to the call that ended it. -/
theorem error_after {r : Run} (good : r.Coherent) (calls : List Call) (e : Error) :
    (r.after calls).error = some e ↔ r.error = some e ∨
      ∃ before call later, calls = before ++ call :: later ∧
        ((r.after before).answer call).1 = some e ∧ (r.after before).Fault e call := by
  induction calls generalizing r with
  | nil => simp [after]
  | cons call rest ih =>
    have did := r.does_answer call
    have split := ih (did.coherent good)
    have first := did.error good e
    change ((r.answer call).2.after rest).error = some e ↔ _
    rw [split, first]
    constructor
    · rintro ((kept | ended) | ⟨before, other, later, rfl, ended⟩)
      · exact .inl kept
      · exact .inr ⟨[], call, rest, rfl, ended⟩
      · exact .inr ⟨call :: before, other, later, rfl, ended⟩
    · rintro (kept | ⟨before, other, later, listed, ended⟩)
      · exact .inl (.inl kept)
      · cases before with
        | nil =>
          cases listed
          exact .inl (.inr ended)
        | cons one before =>
          cases listed
          exact .inr ⟨before, other, later, rfl, ended⟩

end Run

open Run in
/-- The life of a run, after any calls of its host and with any further one. Its state moves forward
only. Once it has finished or was stopped no call changes it, and none but a start is answered with
an error. While it is running its machine is there. A start that comes late is refused and changes
nothing, and no start changes the context or the number of ticks. The run has an error exactly if a
first start failed with it, or an item of work did in a tick, and was then answered with it. A run
that finished has no work left and no error. -/
theorem run_lives_once (path stamp : String) (options : RunOptions) (config : RunConfig)
    (calls : List Call) :
    let fresh := Run.new path stamp options config
    let r := fresh.after calls
    (∀ call, r.state.Moves (r.answer call).2.state) ∧
    (r.state = .finished ∨ r.state = .stopped → ∀ call, (r.answer call).2 = r ∧
      ((r.answer call).1.isSome = true ↔ call.isStart = true)) ∧
    (r.state = .running → r.machine.isSome = true) ∧
    (∀ library file, r.state ≠ .notStarted →
      (∃ e, (r.start library file).1 = .error e) ∧ (r.start library file).2 = r) ∧
    (∀ library file, (r.start library file).2.context = r.context ∧
      (r.start library file).2.ticks = r.ticks) ∧
    (∀ e, r.error = some e ↔ ∃ before call later, calls = before ++ call :: later ∧
      ((fresh.after before).answer call).1 = some e ∧ (fresh.after before).Fault e call) ∧
    (r.error.isSome = true → r.state = .stopped) ∧
    (r.state = .finished → r.error = none ∧ ∃ m, r.machine = some m ∧ m.pending = 0) := by
  intro fresh r
  have good : r.Coherent := coherent_after (coherent_new path stamp options config) calls
  refine ⟨fun call => (r.does_answer call).moves, fun ended call => ?_, good.running, ?_, ?_, ?_,
    good.failed, ?_⟩
  · refine (r.does_answer call).ended ?_
    rcases ended with finished | stopped
    · simp [isActive, finished]
    · simp [isActive, stopped]
  · intro library file late
    simp [Run.start, late]
  · exact fun library file => (r.does_start library file).start_keeps
  · intro e
    have kept := error_after (coherent_new path stamp options config) calls e
    have clean : fresh.error ≠ some e := nofun
    rwa [or_iff_right clean] at kept
  · intro finished
    obtain ⟨m, present, done⟩ := good.finished finished
    have empty : m.work.items = [] := by simpa [Machine.isFinished] using done
    refine ⟨?_, m, present, by rw [Machine.pending, m.work.size_eq, empty, List.length_nil]⟩
    cases kept : r.error with
    | none => rfl
    | some e =>
      have stopped := good.failed (by simp [kept])
      simp [finished] at stopped

end CursorScript
