import CursorScript.BuiltIn
import CursorScript.Library.Standard
import CursorScript.Machine.Trace
import CursorScript.Proofs.Nodes
import CursorScript.Run

/-!
Runs that are given to their host in slices. However the ticks of a run are cut, what it does in
them is a part of what its machine does when it is stepped to its end, taken from the beginning. Two
runs of a script that have both ended by themselves are therefore the same but for their pace.
-/
namespace CursorScript

namespace Machine.Trace

/-- The run needs no more steps. -/
def ended (t : Trace) : Bool := t.machine.isFinished || t.error.isSome

/-- The items of work that `extendWithin` runs; one that fails is the last. -/
def taken : (limit : Nat) → Trace → List Work
  | 0, _ => []
  | limit + 1, t =>
    if t.ended then [] else t.machine.work.items.head?.toList ++ taken limit t.extend

variable {t : Trace}

theorem extendWithin_of_ended (h : t.ended = true) (n : Nat) : t.extendWithin n = t := by
  cases n with
  | zero => rfl
  | succ n => exact if_pos h

theorem taken_of_ended (h : t.ended = true) (n : Nat) : t.taken n = [] := by
  cases n with
  | zero => rfl
  | succ n => exact if_pos h

theorem extendWithin_succ (h : t.ended = false) (n : Nat) :
    t.extendWithin (n + 1) = t.extend.extendWithin n := by
  have going : ¬ (t.machine.isFinished || t.error.isSome) = true := by simpa [ended] using h
  exact if_neg going

theorem taken_succ (h : t.ended = false) {item : Work} {rest : List Work}
    (next : t.machine.work.items = item :: rest) (n : Nat) :
    t.taken (n + 1) = item :: t.extend.taken n := by
  simp [taken, h, next]

theorem extendWithin_add (t : Trace) (n k : Nat) :
    t.extendWithin (n + k) = (t.extendWithin n).extendWithin k := by
  induction n generalizing t with
  | zero => rw [Nat.zero_add, extendWithin]
  | succ n ih =>
    cases h : t.ended with
    | true => simp only [extendWithin_of_ended h]
    | false => rw [Nat.succ_add, extendWithin_succ h, extendWithin_succ h, ih]

theorem taken_add (t : Trace) (n k : Nat) :
    t.taken (n + k) = t.taken n ++ (t.extendWithin n).taken k := by
  induction n generalizing t with
  | zero => rw [Nat.zero_add, extendWithin, taken, List.nil_append]
  | succ n ih =>
    cases h : t.ended with
    | true => simp only [extendWithin_of_ended h, taken_of_ended h, List.append_nil]
    | false =>
      rw [Nat.succ_add, extendWithin_succ h, taken, taken, h, ih]
      simp

/-- More steps only add to what was run. -/
theorem taken_prefix (t : Trace) {n k : Nat} (h : n ≤ k) : t.taken n <+: t.taken k := by
  obtain ⟨more, rfl⟩ := Nat.exists_eq_add_of_le h
  rw [taken_add]
  exact List.prefix_append _ _

theorem eq_of_ended_of_le {n k : Nat} (h : (t.extendWithin n).ended = true) (more : n ≤ k) :
    t.extendWithin n = t.extendWithin k ∧ t.taken n = t.taken k := by
  obtain ⟨rest, rfl⟩ := Nat.exists_eq_add_of_le more
  rw [extendWithin_add, taken_add, extendWithin_of_ended h, taken_of_ended h, List.append_nil]
  exact ⟨rfl, rfl⟩

/-- A run that is over stays as it is. -/
theorem eq_of_ended {n k : Nat} (first : (t.extendWithin n).ended = true)
    (second : (t.extendWithin k).ended = true) :
    t.extendWithin n = t.extendWithin k ∧ t.taken n = t.taken k := by
  rcases Nat.le_total n k with h | h
  · exact eq_of_ended_of_le first h
  · obtain ⟨same, items⟩ := eq_of_ended_of_le second h
    exact ⟨same.symm, items.symm⟩

/-- Some items are the next ones of a run, and `result` is what comes of them. -/
structure Leads (t : Trace) (items : List Work) (result : Machine.Step) : Prop where
  taken : t.taken items.length = items
  machine : (t.extendWithin items.length).machine = result.machine
  context : (t.extendWithin items.length).context = result.context
  error : ∀ e, (t.extendWithin items.length).error = some e ↔ result.outcome = .error e

theorem Leads.nil (fine : t.error = none) : t.Leads [] ⟨.ok none, t.machine, t.context⟩ :=
  ⟨rfl, rfl, rfl, by simp [extendWithin, fine]⟩

section
variable {item : Work} {rest : List Work}

theorem Leads.one (going : t.ended = false) (next : t.machine.work.items = item :: rest) :
    t.Leads [item] (t.machine.step t.context) := by
  have once : t.extendWithin 1 = t.extend := extendWithin_succ going 0
  refine ⟨taken_succ going next 0, ?_, ?_, fun e => ?_⟩ <;>
    rw [List.length_singleton, once, extend] <;> split <;> simp [*]

theorem Leads.cons (going : t.ended = false) (next : t.machine.work.items = item :: rest)
    {items : List Work} {result : Machine.Step} (h : t.extend.Leads items result) :
    t.Leads (item :: items) result := by
  have more : t.extendWithin (items.length + 1) = t.extend.extendWithin items.length :=
    extendWithin_succ going _
  refine ⟨?_, more ▸ h.machine, more ▸ h.context, more ▸ h.error⟩
  rw [List.length_cons, taken_succ going next, h.taken]

end

/-- An item that does not fail leaves a run to be taken further. -/
theorem extend_of_ok {call : Option String} (h : (t.machine.step t.context).outcome = .ok call) :
    t.extend.machine = (t.machine.step t.context).machine ∧
      t.extend.context = (t.machine.step t.context).context ∧ t.extend.error = none := by
  simp [extend, h]

end Machine.Trace

namespace Run
open Machine (Trace)

def runItemsLogged (animated : Bool) :
    (allowance : Nat) → Machine → Context → List Work × Machine.Step
  | 0, machine, context => ([], ⟨.ok none, machine, context⟩)
  | allowance + 1, machine, context =>
    match machine.work.items with
    | [] => ([], ⟨.ok none, machine, context⟩)
    | item :: _ =>
      let result := machine.step context
      let rest := runItemsLogged animated allowance result.machine result.context
      match result.outcome with
      | .error _ => ([item], result)
      | .ok none => (item :: rest.1, rest.2)
      | .ok (some _) => if animated then ([item], result) else (item :: rest.1, rest.2)

def tickLogged (r : Run) (allowance : Nat) : List Work × Except Error RunState × Run :=
  if r.state ≠ .running then ([], .ok r.state, r)
  else
    let r := { r with ticks := r.ticks + 1 }
    if rests r.animation r.ticks then ([], .ok r.state, r)
    else
      match r.machine with
      | none =>
        let e := Error.internal "running without a program" r.filePosition
        ([], .error e, r.failed e)
      | some machine =>
        let ran := runItemsLogged r.animation.isSome (max allowance 1) machine r.context
        (ran.1, r.settle ran.2)

def afterTicks (r : Run) (allowances : List Nat) : Run :=
  allowances.foldl (fun r allowance => (r.tick allowance).2) r

def performed (r : Run) : (allowances : List Nat) → List Work
  | [] => []
  | allowance :: rest =>
    (r.tickLogged allowance).1 ++ performed (r.tickLogged allowance).2.2 rest

theorem runItemsLogged_snd (animated : Bool) (n : Nat) (m : Machine) (c : Context) :
    (runItemsLogged animated n m c).2 = runItems animated n m c := by
  induction n generalizing m c with
  | zero => rfl
  | succ n ih =>
    unfold runItemsLogged runItems Machine.isFinished
    split
    · next done => simp [done]
    · next item _ next =>
      simp only [next, List.isEmpty_cons]
      split <;> simp [*]
      split <;> simp [*]

theorem tickLogged_snd (r : Run) (n : Nat) : (r.tickLogged n).2 = r.tick n := by
  unfold tickLogged tick
  split
  · rfl
  · dsimp only
    split
    · rfl
    · split
      · next h => simp [h]
      · next h => simp [h, runItemsLogged_snd]

variable {r : Run} {whole : Trace} {items : List Work}

/-- The items that are run in a tick are the ones that come next. -/
theorem leads_runItemsLogged (animated : Bool) (n : Nat) (t : Trace) (fine : t.error = none) :
    t.Leads (runItemsLogged animated n t.machine t.context).1
      (runItemsLogged animated n t.machine t.context).2 := by
  induction n generalizing t with
  | zero => exact .nil fine
  | succ n ih =>
    unfold runItemsLogged
    split
    · exact .nil fine
    · next item rest next =>
      have going : t.ended = false := by simp [Trace.ended, Machine.isFinished, next, fine]
      have further : ∀ call, (t.machine.step t.context).outcome = .ok call →
          t.extend.Leads
            (runItemsLogged animated n (t.machine.step t.context).machine
              (t.machine.step t.context).context).1
            (runItemsLogged animated n (t.machine.step t.context).machine
              (t.machine.step t.context).context).2 := by
        intro call h
        obtain ⟨machine, context, fine'⟩ := Trace.extend_of_ok h
        rw [← machine, ← context]
        exact ih t.extend fine'
      dsimp only
      split
      · exact .one going next
      · next h => exact .cons going next (further _ h)
      · next h =>
        split
        · exact .one going next
        · exact .cons going next (further _ h)

structure Follows (r : Run) (whole : Trace) (items : List Work) : Prop where
  taken : whole.taken items.length = items
  machine : r.machine = some (whole.extendWithin items.length).machine
  context : r.context = (whole.extendWithin items.length).context
  error : r.error = (whole.extendWithin items.length).error
  state : r.state = .running ∧ r.error = none ∨
    r.state = .finished ∧ r.error = none ∧ (whole.extendWithin items.length).machine.isFinished ∨
    r.state = .stopped ∧ r.error.isSome = true

theorem Follows.fine (h : r.Follows whole items) (running : r.state = .running) :
    r.error = none := by
  rcases h.state with ⟨_, fine⟩ | ⟨_, fine, _⟩ | ⟨stopped, _⟩
  · exact fine
  · exact fine
  · rw [running] at stopped
    cases stopped

theorem Follows.settle (h : r.Follows whole items) (running : r.state = .running) (ticks : Nat)
    {more : List Work} {result : Machine.Step}
    (leads : (whole.extendWithin items.length).Leads more result) :
    ({ r with ticks := ticks }.settle result).2.Follows whole (items ++ more) := by
  have length : (items ++ more).length = items.length + more.length := List.length_append
  have taken : whole.taken (items ++ more).length = items ++ more := by
    rw [length, Trace.taken_add, h.taken, leads.taken]
  have reached : whole.extendWithin (items ++ more).length =
      (whole.extendWithin items.length).extendWithin more.length := by
    rw [length, Trace.extendWithin_add]
  have machine := reached ▸ leads.machine
  have context := reached ▸ leads.context
  have error := reached ▸ leads.error
  unfold Run.settle
  split
  · next e failed =>
    have found := (error e).2 failed
    exact ⟨taken, congrArg some machine.symm, context.symm, found.symm, .inr (.inr ⟨rfl, rfl⟩)⟩
  · next call fine =>
    have none : (whole.extendWithin (items ++ more).length).error = none := by
      rw [Option.eq_none_iff_forall_ne_some]
      intro e found
      rw [(error e).1 found] at fine
      cases fine
    have before := h.fine running
    dsimp only
    split
    · next finished =>
      exact ⟨taken, congrArg some machine.symm, context.symm, before.trans none.symm,
        .inr (.inl ⟨rfl, before, machine ▸ finished⟩)⟩
    · exact ⟨taken, congrArg some machine.symm, context.symm, before.trans none.symm,
        .inl ⟨running, before⟩⟩

theorem Follows.tick (h : r.Follows whole items) (n : Nat) :
    (r.tick n).2.Follows whole (items ++ (r.tickLogged n).1) := by
  rw [← tickLogged_snd]
  unfold tickLogged
  split
  · simpa using h
  · next running =>
    have running : r.state = .running := by simpa using running
    dsimp only
    split
    · rw [List.append_nil]
      exact ⟨h.taken, h.machine, h.context, h.error, h.state⟩
    · rw [h.machine, h.context]
      exact h.settle running _ (leads_runItemsLogged _ _ _ (h.error.symm.trans (h.fine running)))

theorem Follows.ticks (h : r.Follows whole items) (allowances : List Nat) :
    (r.afterTicks allowances).Follows whole (items ++ r.performed allowances) := by
  induction allowances generalizing r items with
  | nil => simpa [afterTicks, performed] using h
  | cons n rest ih =>
    have first := h.tick n
    have others := ih first
    rw [performed, tickLogged_snd, ← List.append_assoc]
    exact others

/-- A run that is no longer running has come to the end of its whole. -/
theorem Follows.ended (h : r.Follows whole items) (left : r.state ≠ .running) :
    (whole.extendWithin items.length).ended = true := by
  rw [Trace.ended, Bool.or_eq_true, ← h.error]
  rcases h.state with ⟨running, _⟩ | ⟨_, _, finished⟩ | ⟨_, failed⟩
  · exact absurd running left
  · exact .inl finished
  · exact .inr failed

structure Keeps (r r' : Run) : Prop where
  path : r'.path = r.path
  stamp : r'.stamp = r.stamp
  source : r'.source = r.source
  maxDepth : r'.maxDepth = r.maxDepth

theorem keeps_tick (r : Run) (n : Nat) : r.Keeps (r.tick n).2 := by
  unfold tick
  split
  · exact ⟨rfl, rfl, rfl, rfl⟩
  · dsimp only
    split
    · exact ⟨rfl, rfl, rfl, rfl⟩
    · split
      · exact ⟨rfl, rfl, rfl, rfl⟩
      · unfold settle
        split
        · exact ⟨rfl, rfl, rfl, rfl⟩
        · dsimp only
          split <;> exact ⟨rfl, rfl, rfl, rfl⟩

theorem keeps_afterTicks (r : Run) (allowances : List Nat) : r.Keeps (r.afterTicks allowances) := by
  induction allowances generalizing r with
  | nil => exact ⟨rfl, rfl, rfl, rfl⟩
  | cons n rest ih =>
    have first := r.keeps_tick n
    have others := ih (r.tick n).2
    exact ⟨others.path.trans first.path, others.stamp.trans first.stamp,
      others.source.trans first.source, others.maxDepth.trans first.maxDepth⟩

/-- After how many ticks an animated run does something. -/
def stride (r : Run) : Nat := max (r.animation.getD 1) 1

theorem rests_of_not_dvd {tick : Nat} (h : rests r.animation tick = true) : ¬ r.stride ∣ tick := by
  unfold stride
  cases animation : r.animation with
  | none => simp [rests, animation] at h
  | some speed => simpa [rests, animation, Nat.dvd_iff_mod_eq_zero] using h

theorem runItemsLogged_ne_nil (animated : Bool) {n : Nat} {m : Machine} (c : Context)
    (enough : 1 ≤ n) (going : m.isFinished = false) : (runItemsLogged animated n m c).1 ≠ [] := by
  obtain ⟨n, rfl⟩ := Nat.exists_eq_add_of_le' enough
  unfold runItemsLogged
  split
  · next done => simp [Machine.isFinished, done] at going
  · dsimp only
    split
    · simp
    · simp
    · split <;> simp

theorem runItemsLogged_of_finished (animated : Bool) (n : Nat) {m : Machine} (c : Context)
    (done : m.isFinished = true) : (runItemsLogged animated n m c).2 = ⟨.ok none, m, c⟩ := by
  have empty : m.work.items = [] := by simpa [Machine.isFinished] using done
  cases n with
  | zero => rfl
  | succ n => simp [runItemsLogged, empty]

/-- A run that is settled and goes on has a machine with work left. -/
theorem settle_running {result : Machine.Step} (h : (r.settle result).2.state = .running) :
    result.machine.isFinished = false ∧ (r.settle result).2.ticks = r.ticks ∧
      (r.settle result).2.animation = r.animation := by
  unfold settle at h ⊢
  split at h
  · cases h
  · dsimp only at h ⊢
    split at h
    · cases h
    · next going => simp [going]

/-- A tick that leaves a run running is one in which it rests or does something. -/
theorem tick_running {n : Nat} (h : (r.tick n).2.state = .running) :
    r.state = .running ∧ (r.tick n).2.ticks = r.ticks + 1 ∧ (r.tick n).2.stride = r.stride ∧
      (r.stride ∣ r.ticks + 1 → 1 ≤ (r.tickLogged n).1.length) := by
  rw [← tickLogged_snd] at h ⊢
  unfold tickLogged at h ⊢
  split at h
  · next left => exact absurd h left
  · next running =>
    have running : r.state = .running := by simpa using running
    rw [if_neg (by simpa using running)]
    dsimp only at h ⊢
    split at h
    · next resting =>
      rw [if_pos resting]
      exact ⟨running, rfl, rfl, fun due => absurd due (rests_of_not_dvd resting)⟩
    · next working =>
      rw [if_neg working]
      split at h
      · cases h
      · next machine found =>
        simp only [found] at h ⊢
        obtain ⟨more, ticks, animation⟩ := settle_running h
        have going : machine.isFinished = false := by
          cases done : machine.isFinished with
          | false => rfl
          | true =>
            -- a machine without work is left as it is, and would have been found finished
            rw [runItemsLogged_of_finished _ _ _ done] at more
            exact absurd done (by simp [more])
        have some := runItemsLogged_ne_nil r.animation.isSome r.context (Nat.le_max_right n 1) going
        exact ⟨running, ticks, by rw [stride, animation, stride],
          fun _ => List.length_pos_iff.2 some⟩

theorem running_of_afterTicks {allowances : List Nat}
    (h : (r.afterTicks allowances).state = .running) : r.state = .running := by
  induction allowances generalizing r with
  | nil => exact h
  | cons n rest ih => exact (tick_running (ih h)).1

/-- A run that goes on has done something in every tick that was due. -/
theorem due_le_performed {allowances : List Nat} (h : (r.afterTicks allowances).state = .running) :
    (r.ticks + allowances.length) / r.stride ≤
      r.ticks / r.stride + (r.performed allowances).length := by
  induction allowances generalizing r with
  | nil => simp [performed]
  | cons n rest ih =>
    obtain ⟨_, ticks, stride, works⟩ := tick_running (running_of_afterTicks h)
    have others := ih (r := (r.tick n).2) h
    rw [ticks, stride] at others
    rw [performed, tickLogged_snd, List.length_append, List.length_cons]
    have moved : (r.ticks + 1) / r.stride ≤ r.ticks / r.stride + (r.tickLogged n).1.length := by
      rw [Nat.succ_div]
      split
      · next due => exact Nat.add_le_add_left (works due) _
      · exact Nat.le_add_right _ _
    have arranged : r.ticks + (rest.length + 1) = r.ticks + 1 + rest.length := by omega
    rw [arranged]
    omega

def unpaced (r : Run) : Run := { r with animation := none, lastCall := none, ticks := 0 }

/-- Two runs that have come to the end of one whole have the same state. -/
theorem Follows.state_eq {r' : Run} {items' : List Work} (h : r.Follows whole items)
    (h' : r'.Follows whole items') (error : r.error = r'.error) (left : r.state ≠ .running)
    (left' : r'.state ≠ .running) : r.state = r'.state := by
  rcases h.state with ⟨running, _⟩ | ⟨finished, fine, _⟩ | ⟨stopped, failed⟩
  · exact absurd running left
  · rcases h'.state with ⟨running, _⟩ | ⟨finished', _⟩ | ⟨_, failed⟩
    · exact absurd running left'
    · rw [finished, finished']
    · simp [← error, fine] at failed
  · rcases h'.state with ⟨running, _⟩ | ⟨_, fine, _⟩ | ⟨stopped', _⟩
    · exact absurd running left'
    · simp [error, fine] at failed
    · rw [stopped, stopped']

theorem Follows.unpaced_eq {r' : Run} {items' : List Work} (h : r.Follows whole items)
    (h' : r'.Follows whole items') (path : r.path = r'.path) (stamp : r.stamp = r'.stamp)
    (source : r.source = r'.source) (maxDepth : r.maxDepth = r'.maxDepth)
    (left : r.state ≠ .running) (left' : r'.state ≠ .running) :
    items = items' ∧ r.unpaced = r'.unpaced := by
  obtain ⟨same, sameItems⟩ := Trace.eq_of_ended (h.ended left) (h'.ended left')
  have items : items = items' := by rw [← h.taken, sameItems, h'.taken]
  have machine : r.machine = r'.machine := by rw [h.machine, same, h'.machine]
  have context : r.context = r'.context := by rw [h.context, same, h'.context]
  have error : r.error = r'.error := by rw [h.error, same, h'.error]
  have state := h.state_eq h' error left left'
  refine ⟨items, ?_⟩
  unfold unpaced
  rw [path, stamp, source, maxDepth, machine, context, error, state]

/-- Starting a run reads and prepares its script, whatever its pace. -/
theorem start_cases {r r' : Run} {library : Library} {file : FileContent}
    (h : r.start library file = (.ok (), r')) :
    ∃ source machine,
      r' = { r with source := some source, machine := some machine, state := .running } ∧
      ∀ speed, { r with animation := speed }.start library file =
        (.ok (), { r' with animation := speed }) := by
  unfold start at h
  split at h
  · cases h
  · next fresh =>
    split at h
    · cases h
    · next source text =>
      dsimp only at h
      split at h
      · cases h
      · next machine prepared =>
        cases h
        refine ⟨source, machine, rfl, fun speed => ?_⟩
        have text' : { r with animation := speed }.readSource file = .ok source := text
        have prepared' : { r with animation := speed, source := some source }.prepare library
          source = .ok machine := prepared
        unfold start
        rw [if_neg fresh]
        simp only [text', prepared']

theorem follows_start {r r' : Run} {source : String} {machine : Machine} (fine : r.error = none)
    (h : r' = { r with source := some source, machine := some machine, state := .running }) :
    r'.Follows (.initial machine r.context) [] := by
  subst h
  exact ⟨rfl, rfl, rfl, fine, .inl ⟨rfl, fine⟩⟩

end Run

def slicedFile : FileContent :=
  .bytes "var x:number=2;
repeat 2\x7bprint(`\x7bx\x7d`);x-=1;\x7d
print(`\x7b1/x\x7d`);".toUTF8

def slicedStart (speed : Option Nat) : Except Error Unit × Run :=
  { Run.new "sliced" "" .standard .standard with animation := speed }.start (.standard .builtIn)
    slicedFile

end CursorScript
