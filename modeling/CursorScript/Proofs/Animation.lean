import CursorScript.Proofs.Balance
import CursorScript.Proofs.Suspension

/-!
Animated runs. An animated run works in every tick that its speed leaves it and ends such a tick
with its first call. Since no call is ever the last item of a script, a run of `n` calls that has
all the time it needs makes one call in each of `n` working ticks and ends in the one after them.
-/
namespace CursorScript

/-- How a call reads that an item makes on top of some values. -/
def Work.call? (V : List Value) : Work → Option String
  | invoke f _ arity => some (f.describeCall (V.take arity).reverse)
  | _ => none

theorem Work.call?_eq_none {item : Work} (h : item.isInvoke = false) (V : List Value) :
    item.call? V = none := by
  cases item <;> first | rfl | cases h

/-- Where a value is waited for, there is an item that takes it. -/
theorem Work.Takes.ne_nil {call : Bool} {t : Nat} {T : List Work} (h : Takes call t T)
    (some : 0 < t) : T ≠ [] := by
  cases h with
  | behind => cases some
  | _ => exact List.cons_ne_nil _ _

namespace Machine
open Act

theorem taken_of_popMany {σ : Setting} {fs : List Frame} {W : List Work} {V : List Value}
    {count : Nat} {p : Position} {vs : List Value} {m : Machine}
    (h : (popMany count p).run (σ.machine fs W V) = .ok vs m) : vs = (V.take count).reverse := by
  obtain ⟨enough, _⟩ := ok_popMany h
  have length : (V.take count).reverse.length = count := by simp [enough]
  have whole : (V.take count).reverse.reverse ++ V.drop count = V := by simp
  have done := @run_popMany σ fs W (V.drop count) _ _ length p
  rw [whole, h] at done
  cases done
  rfl

theorem description_of_invoke {σ : Setting} {fs : List Frame} {W : List Work} {V : List Value}
    {f : Function} {span : Span} {n : Nat} {c c' : Context} {description : String} {m : Machine}
    (h : (invoke f span n c).run (σ.machine fs W V) = .ok (description, c') m) :
    description = f.describeCall (V.take n).reverse := by
  obtain ⟨arguments, _, popped, h⟩ := ok_of_bind h
  cases taken_of_popMany popped
  dsimp only at h
  split at h
  · split at h
    · cases h
      rfl
    · cases h
  · obtain ⟨_, _, _, h⟩ := ok_of_bind h
    cases h
    rfl

/-- An item that succeeds is described as a call exactly if it is one. -/
theorem call_of_step {m : Machine} {c : Context} {item : Work} {W : List Work}
    {call : Option String} (work : m.work.items = item :: W)
    (succeeds : (m.step c).outcome = .ok call) : call = item.call? m.values := by
  rw [m.eq_machine, work] at succeeds
  cases quiet : item.isInvoke with
  | false =>
    rw [step_item quiet] at succeeds
    rw [Work.call?_eq_none quiet]
    cases done : (perform item).run (m.setting.machine m.frames.items W m.values) with
    | error e m' =>
      rw [done] at succeeds
      cases succeeds
    | ok _ m' =>
      rw [done] at succeeds
      cases succeeds
      rfl
  | true =>
    cases item with
    | invoke f span n =>
      rw [step_invoke] at succeeds
      split at succeeds
      · next done =>
        cases succeeds
        exact congrArg some (description_of_invoke done)
      · cases succeeds
    | _ => cases quiet

/-- A call is never the last item: what takes its value is behind it. -/
theorem InBalance.going_after_call {limit : Nat} {a b : Machine × Context} {f : Function}
    {span : Span} {n : Nat} {W : List Work} (h : a.1.InBalance limit)
    (work : a.1.work.items = .invoke f span n :: W) (next : Next a b) :
    b.1.isFinished = false := by
  obtain ⟨call, T, K, t, k, rfl, takes, _⟩ := h.cons work
  obtain ⟨_, _, rest⟩ := takes.of_join rfl
  have behind : T ++ K ≠ [] := by
    intro empty
    exact rest.ne_nil (Nat.succ_pos _) (List.append_eq_nil_iff.1 empty).1
  rcases effect_of_next next with ⟨none, _⟩ | ⟨item, W', work', fs', W'', V', same, effect⟩
  · rw [work] at none
    cases none
  · cases work.symm.trans work'
    rw [same, isFinished, work_machine, Stack.items_ofList]
    cases effect with
    | answers => simpa using behind
    | unfolds into => cases into
    | enters => simp

namespace Trace
variable {t : Trace}

theorem calls_extend {call : Option String} (h : (t.machine.step t.context).outcome = .ok call) :
    t.extend.calls = t.calls ++ call.toList := by
  simp only [extend, h, calls, List.reverse_cons, List.filterMap_append]
  cases call <;> rfl

theorem calls_extend_of_error {e : Error} (h : (t.machine.step t.context).outcome = .error e) :
    t.extend.calls = t.calls := by
  simp [extend, h, calls]

theorem calls_prefix (t : Trace) (n : Nat) : t.calls <+: (t.extendWithin n).calls := by
  induction n generalizing t with
  | zero => exact List.prefix_rfl
  | succ n ih =>
    cases going : t.ended with
    | true => simp only [extendWithin_of_ended going, List.prefix_rfl]
    | false =>
      rw [extendWithin_succ going]
      refine List.IsPrefix.trans ?_ (ih t.extend)
      cases outcome : (t.machine.step t.context).outcome with
      | error e => simp only [calls_extend_of_error outcome, List.prefix_rfl]
      | ok call =>
        rw [calls_extend outcome]
        exact List.prefix_append _ _

theorem calls_prefix_of_ended {n k : Nat} (h : (t.extendWithin k).ended = true) :
    (t.extendWithin n).calls <+: (t.extendWithin k).calls := by
  rcases Nat.le_total n k with le | le
  · obtain ⟨more, rfl⟩ := Nat.exists_eq_add_of_le le
    rw [extendWithin_add]
    exact calls_prefix _ _
  · simp only [(eq_of_ended_of_le h le).1, List.prefix_rfl]

/-- No call that succeeds is the last item. -/
def GoesOn (whole : Trace) : Prop :=
  ∀ n f span arity W call, (whole.extendWithin n).ended = false →
    (whole.extendWithin n).machine.work.items = .invoke f span arity :: W →
    ((whole.extendWithin n).machine.step (whole.extendWithin n).context).outcome = .ok call →
    ((whole.extendWithin n).machine.step (whole.extendWithin n).context).machine.isFinished = false

/-- A trace without an error is a run of its machine. -/
theorem reaches_extendWithin (n : Nat) (fine : (t.extendWithin n).error = none) :
    Reaches (t.machine, t.context) ((t.extendWithin n).machine, (t.extendWithin n).context) := by
  induction n generalizing t with
  | zero => exact .refl
  | succ n ih =>
    cases going : t.ended with
    | true =>
      rw [extendWithin_of_ended going]
    | false =>
      rw [extendWithin_succ going] at fine ⊢
      refine .head ?_ (ih fine)
      cases outcome : (t.machine.step t.context).outcome with
      | ok call =>
        obtain ⟨machine, context, _⟩ := extend_of_ok outcome
        refine ⟨call, ?_⟩
        rw [machine, context, ← outcome]
      | error e =>
        have failed : t.extend.error = some e := by simp [extend, outcome]
        have halts : t.extend.ended = true := by simp [ended, failed]
        rw [extendWithin_of_ended halts, failed] at fine
        cases fine

end Trace

end Machine

namespace Run
open Machine (Trace)

/-- Items of one animated tick and what comes of them, from where a trace stands: items that are no
calls, and behind them nothing, a call, or an item that fails. -/
inductive Slice : Trace → List Work → Machine.Step → Prop
  | rests (t : Trace) : Slice t [] ⟨.ok none, t.machine, t.context⟩
  | fails {t : Trace} {item : Work} {W : List Work} {e : Error} (going : t.ended = false)
      (next : t.machine.work.items = item :: W)
      (failed : (t.machine.step t.context).outcome = .error e) :
      Slice t [item] (t.machine.step t.context)
  | calls {t : Trace} {f : Function} {span : Span} {arity : Nat} {W : List Work}
      (going : t.ended = false) (next : t.machine.work.items = .invoke f span arity :: W)
      (called : (t.machine.step t.context).outcome =
        .ok (some (f.describeCall (t.machine.values.take arity).reverse))) :
      Slice t [.invoke f span arity] (t.machine.step t.context)
  | works {t : Trace} {item : Work} {W items : List Work} {result : Machine.Step}
      (going : t.ended = false) (next : t.machine.work.items = item :: W)
      (quiet : item.isInvoke = false) (done : (t.machine.step t.context).outcome = .ok none)
      (rest : Slice t.extend items result) : Slice t (item :: items) result

theorem slice_runItemsLogged (n : Nat) (t : Trace) (fine : t.error = none) :
    Slice t (runItemsLogged true n t.machine t.context).1
      (runItemsLogged true n t.machine t.context).2 := by
  induction n generalizing t with
  | zero => exact .rests t
  | succ n ih =>
    unfold runItemsLogged
    split
    · exact .rests t
    · next item W next =>
      have going : t.ended = false := by simp [Trace.ended, Machine.isFinished, next, fine]
      dsimp only
      split
      · next failed => exact .fails going next failed
      · next done =>
        have call := Machine.call_of_step next done
        have quiet : item.isInvoke = false := by
          cases item <;> first | rfl | cases call
        obtain ⟨machine, context, fine'⟩ := Trace.extend_of_ok done
        rw [← machine, ← context]
        exact .works going next quiet done (ih t.extend fine')
      · next called =>
        have call := Machine.call_of_step next called
        rw [call] at called
        cases item with
        | invoke f span arity => exact .calls going next called
        | _ => cases call

section slices
variable {t : Trace} {items : List Work} {result : Machine.Step}

/-- A call ends the tick, and there is none before it. -/
theorem Slice.last_of_isInvoke (h : Slice t items result) {first rest : List Work} {item : Work}
    (split_eq : items = first ++ item :: rest) (isCall : item.isInvoke = true) :
    rest = [] ∧ ∀ other ∈ first, other.isInvoke = false := by
  induction h generalizing first with
  | rests => simp at split_eq
  | fails | calls =>
    cases first with
    | nil => exact ⟨(List.cons.inj split_eq).2.symm, by simp⟩
    | cons => simp at split_eq
  | works going next quiet done more ih =>
    cases first with
    | nil =>
      obtain ⟨rfl, _⟩ := List.cons.inj split_eq
      rw [quiet] at isCall
      cases isCall
    | cons other first =>
      obtain ⟨rfl, same⟩ := List.cons.inj split_eq
      obtain ⟨none, others⟩ := ih same
      exact ⟨none, List.forall_mem_cons.2 ⟨quiet, others⟩⟩

/-- A tick whose last item was a call, with the call as it was made. -/
theorem Slice.exists_call (h : Slice t items result) {first : List Work} {f : Function}
    {span : Span} {arity : Nat} (ends : items = first ++ [.invoke f span arity]) :
    result = (t.extendWithin first.length).machine.step (t.extendWithin first.length).context ∧
    (t.extendWithin first.length).ended = false ∧
    (∃ W, (t.extendWithin first.length).machine.work.items = .invoke f span arity :: W) ∧
    ((∃ e, result.outcome = .error e) ∨ result.outcome = .ok (some (f.describeCall
      ((t.extendWithin first.length).machine.values.take arity).reverse))) := by
  induction h generalizing first with
  | rests => simp at ends
  | fails going next failed =>
    cases first with
    | nil =>
      cases ends
      exact ⟨rfl, going, ⟨_, next⟩, .inl ⟨_, failed⟩⟩
    | cons => simp at ends
  | calls going next called =>
    cases first with
    | nil =>
      cases ends
      exact ⟨rfl, going, ⟨_, next⟩, .inr called⟩
    | cons => simp at ends
  | works going next quiet done more ih =>
    cases first with
    | nil =>
      cases ends
      cases quiet
    | cons other first =>
      rw [List.length_cons, Trace.extendWithin_succ going]
      exact ih (List.cons.inj ends).2

/-- A tick that ends with a call adds it to the calls of the trace. -/
theorem Slice.calls_of_some {call : String} (h : Slice t items result)
    (called : result.outcome = .ok (some call)) :
    (t.extendWithin items.length).calls = t.calls ++ [call] ∧
      ∃ first f span arity, items = first ++ [.invoke f span arity] := by
  induction h with
  | rests => cases called
  | fails going next failed =>
    rw [failed] at called
    cases called
  | calls going next made =>
    cases made.symm.trans called
    rw [List.length_singleton, Trace.extendWithin_succ going, Trace.extendWithin]
    exact ⟨Trace.calls_extend made, [], _, _, _, rfl⟩
  | works going next quiet done more ih =>
    obtain ⟨calls, first, f, span, arity, ends⟩ := ih called
    have silent := Trace.calls_extend done
    rw [List.length_cons, Trace.extendWithin_succ going, calls, silent, ends]
    exact ⟨by simp, _ :: first, f, span, arity, rfl⟩

/-- A tick without a call leaves the calls of the trace as they were. -/
theorem Slice.calls_of_none (h : Slice t items result) (silent : result.outcome = .ok none) :
    (t.extendWithin items.length).calls = t.calls := by
  induction h with
  | rests => rfl
  | fails going next failed =>
    rw [failed] at silent
    cases silent
  | calls going next made => cases made.symm.trans silent
  | works going next quiet done more ih =>
    rw [List.length_cons, Trace.extendWithin_succ going, ih silent, Trace.calls_extend done]
    simp

end slices

/-- A tick that ends with a call leaves work behind it. -/
theorem Slice.going_of_some {whole : Trace} {done items : List Work} {result : Machine.Step}
    {call : String} (goesOn : whole.GoesOn)
    (h : Slice (whole.extendWithin done.length) items result)
    (called : result.outcome = .ok (some call)) : result.machine.isFinished = false := by
  obtain ⟨_, first, f, span, arity, closes⟩ := h.calls_of_some called
  obtain ⟨stepped, going, ⟨W, work⟩, _⟩ := h.exists_call closes
  rw [← Trace.extendWithin_add] at stepped going work
  rw [stepped] at called ⊢
  exact goesOn _ f span arity W _ going work called

/-- A tick without a call that is not at the end of the work has used up its allowance. -/
theorem finished_of_runItemsLogged {n : Nat} {m : Machine} {c : Context}
    (silent : (runItemsLogged true n m c).2.outcome = .ok none) :
    (runItemsLogged true n m c).2.machine.isFinished = true ∨
      (runItemsLogged true n m c).1.length = n := by
  induction n generalizing m c with
  | zero => exact .inr rfl
  | succ n ih =>
    unfold runItemsLogged at silent ⊢
    split
    · next none => exact .inl (by simp [Machine.isFinished, none])
    · next item W next =>
      rw [next] at silent
      dsimp only at silent ⊢
      split at silent
      · next failed =>
        rw [failed] at silent
        cases silent
      · next done =>
        simp only [List.length_cons, Nat.add_right_cancel_iff]
        exact ih silent
      · next called =>
        rw [if_pos rfl, called] at silent
        cases silent

section ticks
variable {r : Run} {m : Machine} {n : Nat}

theorem rests_of_dvd {tick : Nat} (h : r.stride ∣ tick) : rests r.animation tick = false := by
  unfold stride at h
  cases animation : r.animation with
  | none => rfl
  | some speed =>
    rw [animation, Option.getD_some] at h
    simp [rests, Nat.mod_eq_zero_of_dvd h]

theorem rests_of_early {tick : Nat} (h : ¬ r.stride ∣ tick) : rests r.animation tick = true := by
  unfold stride at h
  cases animation : r.animation with
  | none => simp [animation] at h
  | some speed =>
    rw [animation, Option.getD_some, Nat.dvd_iff_mod_eq_zero] at h
    simpa [rests] using h

theorem tickLogged_of_due (running : r.state = .running) (due : r.stride ∣ r.ticks + 1)
    (found : r.machine = some m) (n : Nat) :
    r.tickLogged n =
      ((runItemsLogged r.animation.isSome (max n 1) m r.context).1,
        { r with ticks := r.ticks + 1 }.settle
          (runItemsLogged r.animation.isSome (max n 1) m r.context).2) := by
  simp [tickLogged, running, rests_of_dvd due, found]

theorem tickLogged_of_early (running : r.state = .running) (early : ¬ r.stride ∣ r.ticks + 1)
    (n : Nat) : r.tickLogged n = ([], .ok .running, { r with ticks := r.ticks + 1 }) := by
  simp [tickLogged, running, rests_of_early early]

theorem tickLogged_of_left (left : r.state ≠ .running) (n : Nat) :
    r.tickLogged n = ([], .ok r.state, r) := by
  simp [tickLogged, left]

theorem afterTicks_append (r : Run) (before : List Nat) (n : Nat) (rest : List Nat) :
    r.afterTicks (before ++ n :: rest) = ((r.afterTicks before).tick n).2.afterTicks rest := by
  simp [afterTicks]

theorem afterTicks_of_left (left : r.state ≠ .running) (allowances : List Nat) :
    r.afterTicks allowances = r := by
  induction allowances with
  | nil => rfl
  | cons n rest ih =>
    have unchanged : (r.tick n).2 = r := by rw [← tickLogged_snd, tickLogged_of_left left]
    rw [afterTicks, List.foldl_cons, unchanged]
    exact ih

theorem pace_settle (r : Run) (result : Machine.Step) :
    (r.settle result).2.ticks = r.ticks ∧ (r.settle result).2.animation = r.animation := by
  unfold settle
  split
  · exact ⟨rfl, rfl⟩
  · dsimp only
    split <;> exact ⟨rfl, rfl⟩

theorem animation_tick (r : Run) (n : Nat) : (r.tick n).2.animation = r.animation := by
  unfold tick
  split
  · rfl
  · dsimp only
    split
    · rfl
    · split
      · rfl
      · exact (pace_settle _ _).2

theorem animation_afterTicks (r : Run) (allowances : List Nat) :
    (r.afterTicks allowances).animation = r.animation := by
  induction allowances generalizing r with
  | nil => rfl
  | cons n rest ih => exact (ih (r.tick n).2).trans (r.animation_tick n)

theorem settle_of_ok {result : Machine.Step} {call : Option String}
    (done : result.outcome = .ok call) (going : result.machine.isFinished = false) :
    r.settle result = (.ok r.state, { r with
      machine := some result.machine
      context := result.context
      lastCall := call.or r.lastCall }) := by
  simp [settle, done, going]

theorem settle_of_finished {result : Machine.Step} {call : Option String}
    (done : result.outcome = .ok call) (finished : result.machine.isFinished = true) :
    (r.settle result).2.state = .finished := by
  simp [settle, done, finished]

theorem settle_of_error {result : Machine.Step} {e : Error} (failed : result.outcome = .error e) :
    (r.settle result).1 = .error e ∧ (r.settle result).2.state = .stopped ∧
      (r.settle result).2.lastCall = r.lastCall := by
  simp [settle, failed, Run.failed]

end ticks

/-- A tick that is due runs the items of a slice, and is not cut short before it has used up its
allowance. -/
theorem Follows.due {r : Run} {whole : Trace} {items : List Work} (h : r.Follows whole items)
    (running : r.state = .running) (animated : r.animation.isSome = true)
    (due : r.stride ∣ r.ticks + 1) (n : Nat) :
    ∃ more result, r.tickLogged n = (more, { r with ticks := r.ticks + 1 }.settle result) ∧
      Slice (whole.extendWithin items.length) more result ∧
      (whole.extendWithin items.length).Leads more result ∧
      (result.outcome = .ok none → result.machine.isFinished = true ∨ n ≤ more.length) := by
  have fine := h.error.symm.trans (h.fine running)
  have logged := tickLogged_of_due running due h.machine n
  have context : r.context = (whole.extendWithin items.length).context := h.context
  rw [animated] at logged
  refine ⟨_, _, logged, ?_, ?_, fun silent => ?_⟩
  · rw [context]
    exact slice_runItemsLogged _ _ fine
  · rw [context]
    exact leads_runItemsLogged true _ _ fine
  · rcases finished_of_runItemsLogged silent with finished | used
    · exact .inl finished
    · exact .inr (Nat.le_trans (Nat.le_max_left n 1) (Nat.le_of_eq used.symm))

structure Paced (r : Run) (whole : Trace) (calls : List String) (items : List Work)
    (k : Nat) : Prop where
  follows : r.Follows whole items
  running : r.state = .running
  animated : r.animation.isSome = true
  due : r.ticks / r.stride = k
  made : (whole.extendWithin items.length).calls = calls.take k
  fewer : k ≤ calls.length
  last : r.lastCall = (calls.take k).getLast?
  count : items.countP Work.isInvoke = k
  ends : ∀ item, items.getLast? = some item → item.isInvoke = true

section paced
variable {r : Run} {whole : Trace} {calls : List String} {items : List Work} {k : Nat}

theorem Paced.early (h : r.Paced whole calls items k) (early : ¬ r.stride ∣ r.ticks + 1) (n : Nat) :
    (r.tick n).2.Paced whole calls (items ++ (r.tickLogged n).1) k := by
  have follows := h.follows.tick n
  rw [← tickLogged_snd] at follows ⊢
  rw [tickLogged_of_early h.running early] at follows ⊢
  have due : (r.ticks + 1) / r.stride = k := by
    rw [Nat.succ_div, if_neg early, Nat.add_zero]
    exact h.due
  rw [List.append_nil] at follows ⊢
  exact ⟨follows, h.running, h.animated, due, h.made, h.fewer, h.last, h.count, h.ends⟩

/-- The next of some calls, when so many are made and one more. -/
theorem take_of_prefix {call : String} (all : calls.take k ++ [call] <+: calls)
    (fewer : k ≤ calls.length) :
    k < calls.length ∧ calls.take (k + 1) = calls.take k ++ [call] := by
  have length := all.length_le
  rw [List.length_append, List.length_take, Nat.min_eq_left fewer, List.length_singleton] at length
  refine ⟨length, ?_⟩
  have same := List.prefix_iff_eq_take.1 all
  rw [List.length_append, List.length_take, Nat.min_eq_left fewer, List.length_singleton] at same
  exact same.symm

/-- A whole run that finishes, in which no call is the last item. -/
structure Completes (whole : Trace) (steps : Nat) : Prop where
  finished : (whole.extendWithin steps).machine.isFinished = true
  fine : (whole.extendWithin steps).error = none
  goesOn : whole.GoesOn

theorem Completes.ended {steps : Nat} (h : Completes whole steps) :
    (whole.extendWithin steps).ended = true := by simp [Trace.ended, h.finished]

/-- The last item after some calls is one of them. -/
theorem Paced.exists_call (h : r.Paced whole calls items (k + 1)) :
    ∃ first f span arity, items = first ++ [.invoke f span arity] ∧
      first.countP Work.isInvoke = k := by
  have count := h.count
  rcases List.eq_nil_or_concat items with rfl | ⟨first, item, rfl⟩
  · cases count
  · have isCall := h.ends item (by simp)
    rw [List.concat_eq_append, List.countP_append, List.countP_singleton, isCall] at count
    cases item with
    | invoke f span arity => exact ⟨first, f, span, arity, by simp, Nat.succ.inj count⟩
    | _ => cases isCall

section completing
variable {steps : Nat} {more : List Work} {result : Machine.Step}

/-- Nothing fails in a run that finishes. -/
theorem Completes.not_failed (complete : Completes whole steps) {n : Nat} {e : Error} :
    (whole.extendWithin n).error ≠ some e := by
  intro failed
  have halts : (whole.extendWithin n).ended = true := by simp [Trace.ended, failed]
  rw [(Trace.eq_of_ended halts complete.ended).1, complete.fine] at failed
  cases failed

/-- A tick without a call comes to the end, and all calls were made before it. -/
theorem Completes.of_silent (complete : Completes whole steps) (made :
      (whole.extendWithin items.length).calls = ((whole.extendWithin steps).calls).take k)
    (slice : Slice (whole.extendWithin items.length) more result)
    (leads : (whole.extendWithin items.length).Leads more result)
    (silent : result.outcome = .ok none)
    (unhurried : result.machine.isFinished = true ∨ steps ≤ more.length) :
    result.machine.isFinished = true ∧ (whole.extendWithin steps).calls.length ≤ k := by
  have same : whole.extendWithin (items.length + more.length) = whole.extendWithin steps := by
    rcases unhurried with finished | used
    · refine (Trace.eq_of_ended ?_ complete.ended).1
      rw [Trace.extendWithin_add, Trace.ended, leads.machine, finished]
      rfl
    · exact (Trace.eq_of_ended_of_le complete.ended (by omega)).1.symm
  have kept := slice.calls_of_none silent
  rw [← Trace.extendWithin_add, same, made] at kept
  constructor
  · rw [← leads.machine, ← Trace.extendWithin_add, same]
    exact complete.finished
  · rw [kept, List.length_take]
    exact Nat.min_le_left _ _

end completing

/-- A tick that is due makes the next call; when all are made, it finishes the run. -/
theorem Paced.tick {steps n : Nat} (h : r.Paced whole (whole.extendWithin steps).calls items k)
    (due : r.stride ∣ r.ticks + 1) (complete : Completes whole steps) (enough : steps ≤ n) :
    k < (whole.extendWithin steps).calls.length ∧
      (r.tick n).2.Paced whole (whole.extendWithin steps).calls (items ++ (r.tickLogged n).1)
        (k + 1) ∨
    k = (whole.extendWithin steps).calls.length ∧ (r.tick n).2.state = .finished ∧
      (r.tick n).2.ticks = r.ticks + 1 := by
  have after := h.follows.tick n
  obtain ⟨more, result, logged, slice, leads, unhurried⟩ := h.follows.due h.running h.animated due n
  rw [← tickLogged_snd] at after ⊢
  rw [logged] at after ⊢
  have reached : whole.extendWithin (items ++ more).length =
      (whole.extendWithin items.length).extendWithin more.length := by
    rw [List.length_append, Trace.extendWithin_add]
  cases outcome : result.outcome with
  | error e =>
    have failed := (leads.error e).2 outcome
    rw [← reached] at failed
    exact absurd failed complete.not_failed
  | ok call =>
    cases call with
    | none =>
      obtain ⟨finished, every⟩ := complete.of_silent h.made slice leads outcome
        ((unhurried outcome).imp_right (Nat.le_trans enough))
      exact .inr ⟨Nat.le_antisymm h.fewer every, settle_of_finished outcome finished,
        (pace_settle _ _).1⟩
    | some call =>
      obtain ⟨made, first, f, span, arity, closes⟩ := slice.calls_of_some outcome
      have next : (whole.extendWithin steps).calls.take k ++ [call] <+:
          (whole.extendWithin steps).calls := by
        rw [← h.made, ← made, ← reached]
        exact Trace.calls_prefix_of_ended complete.ended
      obtain ⟨less, taken⟩ := take_of_prefix next h.fewer
      obtain ⟨_, quiet⟩ := slice.last_of_isInvoke closes rfl
      rw [settle_of_ok outcome (slice.going_of_some complete.goesOn outcome)] at after ⊢
      refine .inl ⟨less, after, h.running, h.animated, ?_, ?_, less, ?_, ?_, ?_⟩
      · change (r.ticks + 1) / r.stride = k + 1
        rw [Nat.succ_div, if_pos due, h.due]
      · rw [reached, made, h.made, taken]
      · rw [taken]
        simp
      · rw [List.countP_append, h.count, closes, List.countP_append, List.countP_eq_zero.2]
        · rfl
        · simpa using quiet
      · intro item isLast
        rw [closes, ← List.append_assoc, List.getLast?_concat] at isLast
        cases isLast
        rfl

/-- While fewer ticks were due than there are calls, and as many, each of them made its call. -/
theorem Paced.ticks {steps : Nat} (complete : Completes whole steps) {allowances : List Nat}
    (enough : ∀ n ∈ allowances, steps ≤ n)
    (h : r.Paced whole (whole.extendWithin steps).calls items k)
    (fewer : (r.ticks + allowances.length) / r.stride ≤ (whole.extendWithin steps).calls.length) :
    (r.afterTicks allowances).ticks = r.ticks + allowances.length ∧
    (r.afterTicks allowances).stride = r.stride ∧
    (r.afterTicks allowances).Paced whole (whole.extendWithin steps).calls
      (items ++ r.performed allowances) ((r.ticks + allowances.length) / r.stride) := by
  induction allowances generalizing r items k with
  | nil =>
    have due : (r.ticks + [].length (α := Nat)) / r.stride = k := h.due
    rw [due, performed, List.append_nil]
    exact ⟨rfl, rfl, h⟩
  | cons n rest ih =>
    obtain ⟨first, others⟩ := List.forall_mem_cons.1 enough
    have moved : ∃ k', (r.tick n).2.Paced whole (whole.extendWithin steps).calls
        (items ++ (r.tickLogged n).1) k' := by
      by_cases due : r.stride ∣ r.ticks + 1
      · rcases h.tick due complete first with ⟨_, paced⟩ | ⟨every, _⟩
        · exact ⟨_, paced⟩
        · -- one more tick would be due than there are calls
          have one : (r.ticks + 1) / r.stride = k + 1 := by
            rw [Nat.succ_div, if_pos due, h.due]
          have later : (r.ticks + 1) / r.stride ≤ (r.ticks + (n :: rest).length) / r.stride :=
            Nat.div_le_div_right (by simp)
          omega
      · exact ⟨k, h.early due n⟩
    obtain ⟨k', paced⟩ := moved
    obtain ⟨_, ticks, stride, _⟩ := tick_running paced.running
    have length : r.ticks + (n :: rest).length = (r.tick n).2.ticks + rest.length := by
      rw [ticks, List.length_cons]
      omega
    rw [length, ← stride] at fewer ⊢
    obtain ⟨ticks', stride', paced'⟩ := ih others paced fewer
    rw [performed, tickLogged_snd, ← List.append_assoc]
    exact ⟨ticks', stride', paced'⟩

end paced

theorem initial_of_prepare {r : Run} {library : Library} {source : String} {machine : Machine}
    (h : r.prepare library source = .ok machine) :
    ∃ tokens p tables, Program.ofTokens tokens r.fileName = .ok p ∧
      p.analyse library = .ok tables ∧ machine = .initial p tables r.maxDepth := by
  unfold prepare at h
  cases read : Program.ofSource source r.fileName with
  | error e =>
    rw [read] at h
    cases h
  | ok p =>
    obtain ⟨tokens, _, parsed⟩ := Program.exists_tokens read
    rw [read] at h
    change (p.analyse library >>= _) = _ at h
    cases accepted : p.analyse library with
    | error e =>
      rw [accepted] at h
      cases h
    | ok tables =>
      rw [accepted] at h
      cases h
      exact ⟨tokens, p, tables, parsed, accepted, rfl⟩

/-- A run that has started is before the first statement of a script that analysis accepted. -/
theorem initial_of_start {r r' : Run} {library : Library} {file : FileContent}
    (h : r.start library file = (.ok (), r')) :
    ∃ tokens p tables, Program.ofTokens tokens r.fileName = .ok p ∧
      p.analyse library = .ok tables ∧ r'.machine = some (.initial p tables r.maxDepth) := by
  unfold start at h
  split at h
  · cases h
  · split at h
    · cases h
    · next source _ =>
      dsimp only at h
      split at h
      · cases h
      · next machine prepared =>
        cases h
        obtain ⟨tokens, p, tables, read, accepted, rfl⟩ := initial_of_prepare prepared
        exact ⟨tokens, p, tables, read, accepted, rfl⟩

theorem goesOn_initial {tokens : List Token} {name : String} {p : Program} {library : Library}
    {tables : Tables} (read : Program.ofTokens tokens name = .ok p) (native : library.Native)
    (accepted : p.analyse library = .ok tables) (maxDepth : Nat) (c : Context) :
    (Trace.initial (.initial p tables maxDepth) c).GoesOn := by
  intro n f span arity W call going work called
  have fine : ((Trace.initial (.initial p tables maxDepth) c).extendWithin n).error = none := by
    rw [Trace.ended, Bool.or_eq_false_iff] at going
    simpa using going.2
  have reached := Trace.reaches_extendWithin n fine
  have even := Machine.inBalance_of_reaches read native accepted reached
  exact even.going_after_call work (b := (_, _)) ⟨call, by rw [← called]⟩

/-- What a tick may do in which an animated run goes on with its whole, of which it has run some
items. -/
structure TickByCall (whole : Trace) (speed : Nat) (done : List Work) (r : Run)
    (allowance : Nat) : Prop where
  /-- It runs items only if its number is a multiple of the speed, of which zero counts as one. -/
  due : (r.tickLogged allowance).1 ≠ [] → max speed 1 ∣ (r.tick allowance).2.ticks
  /-- A call is its last item and its only call. -/
  last : ∀ first item rest, (r.tickLogged allowance).1 = first ++ item :: rest →
    item.isInvoke = true → rest = [] ∧ ∀ other ∈ first, other.isInvoke = false
  /-- That call becomes the last one of the run, which goes on. A call that fails stops the run and
  leaves the last one as it was. -/
  call : ∀ first f span arity, (r.tickLogged allowance).1 = first ++ [.invoke f span arity] →
    ∀ here, here = whole.extendWithin (done ++ first).length →
      ((r.tick allowance).1 = .ok .running ∧ (r.tick allowance).2.lastCall =
        some (f.describeCall (here.machine.values.take arity).reverse)) ∨
      ∃ e, (here.machine.step here.context).outcome = .error e ∧
        (r.tick allowance).1 = .error e ∧ (r.tick allowance).2.state = .stopped ∧
        (r.tick allowance).2.lastCall = r.lastCall

/-- What ticks do with a run whose whole finishes after so many items, and makes its calls among
them. -/
structure TicksByCalls (whole : Trace) (speed steps : Nat) (calls : List String) (r : Run)
    (allowances : List Nat) : Prop where
  /-- The ticks up to one that is due end on a call, which is the next call of the whole. -/
  call : ∀ i, i < calls.length → allowances.length = max speed 1 * (i + 1) →
    r.performed allowances <+: whole.taken steps ∧
    (∃ first f span arity, r.performed allowances = first ++ [.invoke f span arity] ∧
      first.countP Work.isInvoke = i) ∧
    (r.afterTicks allowances).lastCall = calls[i]?
  running : allowances.length < max speed 1 * (calls.length + 1) →
    (r.afterTicks allowances).state = .running
  finished : max speed 1 * (calls.length + 1) ≤ allowances.length →
    (r.afterTicks allowances).state = .finished ∧
    (r.afterTicks allowances).ticks = max speed 1 * (calls.length + 1)

section statement
variable {r : Run} {whole : Trace} {speed : Nat} {done : List Work}

theorem stride_of_animation (h : r.animation = some speed) : r.stride = max speed 1 := by
  rw [stride, h, Option.getD_some]

theorem tickByCall_of_nil {allowance : Nat} (h : (r.tickLogged allowance).1 = []) :
    TickByCall whole speed done r allowance := by
  refine ⟨fun some => absurd h some, fun first _ _ split_eq => ?_, fun first _ _ _ split_eq => ?_⟩
  · simp [h] at split_eq
  · simp [h] at split_eq

theorem tickByCall_of_follows (h : r.Follows whole done) (goesOn : whole.GoesOn)
    (animation : r.animation = some speed) (allowance : Nat) :
    TickByCall whole speed done r allowance := by
  have stride := stride_of_animation animation
  by_cases running : r.state = .running
  · by_cases due : r.stride ∣ r.ticks + 1
    · obtain ⟨more, result, logged, slice, _, _⟩ :=
        h.due running (by simp [animation]) due allowance
      have ticked : r.tick allowance = { r with ticks := r.ticks + 1 }.settle result := by
        rw [← tickLogged_snd, logged]
      refine ⟨fun _ => ?_, fun first item rest split_eq isCall => ?_, ?_⟩
      · rw [ticked, (pace_settle _ _).1, ← stride]
        exact due
      · rw [logged] at split_eq
        exact slice.last_of_isInvoke split_eq isCall
      · rintro first f span arity split_eq here rfl
        rw [logged] at split_eq
        rw [ticked, List.length_append, Trace.extendWithin_add]
        obtain ⟨stepped, _, _, ⟨e, failed⟩ | called⟩ := slice.exists_call split_eq
        · obtain ⟨answer, state, last⟩ :=
            settle_of_error (r := { r with ticks := r.ticks + 1 }) failed
          exact .inr ⟨e, stepped ▸ failed, answer, state, last⟩
        · rw [settle_of_ok called (slice.going_of_some goesOn called)]
          exact .inl ⟨congrArg Except.ok running, rfl⟩
    · exact tickByCall_of_nil (by rw [tickLogged_of_early running due])
  · exact tickByCall_of_nil (by rw [tickLogged_of_left running])

theorem exists_split {allowances : List Nat} {k : Nat} (h : k < allowances.length) :
    ∃ before n rest, allowances = before ++ n :: rest ∧ before.length = k := by
  refine ⟨allowances.take k, allowances[k], allowances.drop (k + 1), ?_, ?_⟩
  · rw [← List.drop_eq_getElem_cons h, List.take_append_drop]
  · rw [List.length_take, Nat.min_eq_left (Nat.le_of_lt h)]

theorem prefix_of_ended {steps n : Nat} (h : (whole.extendWithin steps).ended = true) :
    whole.taken n <+: whole.taken steps := by
  rcases Nat.le_total n steps with less | more
  · exact Trace.taken_prefix whole less
  · simp only [(Trace.eq_of_ended_of_le h more).2, List.prefix_rfl]

/-- The tick that is due when all calls are made finishes the run, and those behind it leave it. -/
theorem finishes_of_paced {steps s : Nat} {allowances : List Nat} (complete : Completes whole steps)
    (h : r.Paced whole (whole.extendWithin steps).calls [] 0) (fresh : r.ticks = 0)
    (stride : r.stride = s) (positive : 0 < s)
    (more : s * ((whole.extendWithin steps).calls.length + 1) ≤ allowances.length)
    (enough : ∀ n ∈ allowances, steps ≤ n) :
    (r.afterTicks allowances).state = .finished ∧
      (r.afterTicks allowances).ticks = s * ((whole.extendWithin steps).calls.length + 1) := by
  have inside : s * ((whole.extendWithin steps).calls.length + 1) - 1 < allowances.length := by
    rw [Nat.mul_succ] at more ⊢
    omega
  obtain ⟨before, n, rest, rfl, length⟩ := exists_split inside
  have number : before.length + 1 = s * ((whole.extendWithin steps).calls.length + 1) := by
    rw [Nat.mul_succ] at length ⊢
    omega
  have due : before.length / s = (whole.extendWithin steps).calls.length := by
    rw [Nat.mul_succ, Nat.mul_comm] at number
    refine Nat.div_eq_of_lt_le (by omega) ?_
    rw [Nat.succ_mul]
    omega
  have paced := @Paced.ticks r whole [] 0 steps complete before
    (fun n mem => enough n (by simp [mem])) h
  rw [fresh, stride, Nat.zero_add, due, List.nil_append] at paced
  obtain ⟨ticks, stride', there⟩ := paced (Nat.le_refl _)
  have multiple : (r.afterTicks before).stride ∣ (r.afterTicks before).ticks + 1 := by
    rw [ticks, stride', number]
    exact Nat.dvd_mul_right _ _
  rcases there.tick multiple complete (enough n (by simp)) with ⟨less, _⟩ | ⟨_, state, ticks'⟩
  · exact absurd less (Nat.lt_irrefl _)
  · have left : ((r.afterTicks before).tick n).2.state ≠ .running := by simp [state]
    rw [afterTicks_append, afterTicks_of_left left, ticks', ticks, number]
    exact ⟨state, rfl⟩

theorem ticksByCalls_of_paced {steps : Nat} {allowances : List Nat}
    (complete : Completes whole steps)
    (h : r.Paced whole (whole.extendWithin steps).calls [] 0) (fresh : r.ticks = 0)
    (animation : r.animation = some speed) (enough : ∀ n ∈ allowances, steps ≤ n) :
    TicksByCalls whole speed steps (whole.extendWithin steps).calls r allowances := by
  have stride := stride_of_animation animation
  have positive : 0 < max speed 1 := Nat.lt_of_lt_of_le Nat.one_pos (Nat.le_max_right speed 1)
  have paced := @Paced.ticks r whole [] 0 steps complete
  simp only [fresh, stride, Nat.zero_add, List.nil_append] at paced
  refine ⟨fun i less length => ?_, fun less => ?_, fun more => ?_⟩
  · have due : allowances.length / max speed 1 = i + 1 := by
      rw [length, Nat.mul_div_cancel_left _ positive]
    obtain ⟨_, _, there⟩ := paced enough h (by omega)
    rw [due] at there
    refine ⟨there.follows.taken ▸ prefix_of_ended complete.ended, there.exists_call, ?_⟩
    rw [there.last, List.getLast?_take]
    simp [less]
  · have due : allowances.length / max speed 1 ≤ (whole.extendWithin steps).calls.length :=
      Nat.le_of_lt_succ ((Nat.div_lt_iff_lt_mul positive).2 (by rwa [Nat.mul_comm]))
    exact (paced enough h due).2.2.running
  · exact finishes_of_paced complete h fresh stride positive more enough

end statement

end Run

open Machine (Trace) in
/-- An animated run goes from call to call. Whatever the allowances, each of its ticks rests or ends
with its first call. If the script finishes when it is run without a pause, then with allowances
that it never uses up, the ticks that are due make its calls one by one, and the run finishes in the
one after them. -/
theorem animation_goes_by_calls {path stamp : String} {options : RunOptions} {config : RunConfig}
    {library : Library} {file : FileContent} {speed : Nat} {r : Run} (native : library.Native)
    (animated : options.animation.or config.animation = some speed)
    (started : (Run.new path stamp options config).start library file = (.ok (), r)) :
    ∃ machine, r.machine = some machine ∧
      (∀ before allowance, Run.TickByCall (.initial machine r.context) speed (r.performed before)
        (r.afterTicks before) allowance) ∧
      ∀ steps, ((Trace.initial machine r.context).extendWithin steps).machine.isFinished = true →
        ((Trace.initial machine r.context).extendWithin steps).error = none →
        ∀ allowances, (∀ n ∈ allowances, steps ≤ n) →
          Run.TicksByCalls (.initial machine r.context) speed steps
            ((Trace.initial machine r.context).extendWithin steps).calls r allowances := by
  obtain ⟨source, machine, same, _⟩ := Run.start_cases started
  obtain ⟨tokens, p, tables, read, accepted, prepared⟩ := Run.initial_of_start started
  have found : r.machine = some machine := by rw [same]
  cases found.symm.trans prepared
  have follows : r.Follows (.initial (.initial p tables config.maxDepth) r.context) [] := by
    have := Run.follows_start rfl same
    rwa [same] at this ⊢
  have animation : r.animation = some speed := by rw [same]; exact animated
  have goesOn := Run.goesOn_initial read native accepted config.maxDepth r.context
  refine ⟨_, found, fun before allowance => ?_, fun steps finished fine allowances enough => ?_⟩
  · refine Run.tickByCall_of_follows ?_ goesOn ?_ allowance
    · have := follows.ticks before
      rwa [List.nil_append] at this
    · rw [Run.animation_afterTicks, animation]
  · have fresh : r.ticks = 0 := by rw [same]; rfl
    have running : r.state = .running := by rw [same]
    have last : r.lastCall = none := by rw [same]; rfl
    refine Run.ticksByCalls_of_paced ⟨finished, fine, goesOn⟩ ?_ fresh animation enough
    refine ⟨follows, running, by simp [animation], ?_, rfl, Nat.zero_le _, last, rfl, by simp⟩
    rw [fresh, Nat.zero_div]

/-- A script with a call of its own function inside a call of the host's. -/
def nestedCalls : FileContent :=
  .bytes "function f(n:number):number\x7breturn n+1;\x7d
print(`\x7bf(1)\x7d`);".toUTF8

def animatedStart (speed : Nat) (file : FileContent) : Except Error Unit × Run :=
  (Run.new "" "" { RunOptions.standard with animation := some speed } .standard).start
    (.standard .builtIn) file

open Machine (Trace) in
/-- Two calls at every second tick: the second is made in the fourth, and the run ends in the
sixth. -/
theorem animation_goes_by_calls_nested :
    ∃ r, animatedStart 2 nestedCalls = (.ok (), r) ∧
      (∃ first f span arity, r.performed (List.replicate 4 30) = first ++ [.invoke f span arity] ∧
        first.countP Work.isInvoke = 1) ∧
      (r.afterTicks (List.replicate 4 30)).lastCall = some "print(2)" ∧
      (r.afterTicks (List.replicate 5 30)).state = .running ∧
      (r.afterTicks (List.replicate 8 30)).state = .finished ∧
      (r.afterTicks (List.replicate 8 30)).ticks = 6 := by
  have accepted : (animatedStart 2 nestedCalls).1.toOption = some () := by decide +kernel
  have runs : ((animatedStart 2 nestedCalls).2.machine.any fun m =>
      let whole := (Trace.initial m (animatedStart 2 nestedCalls).2.context).extendWithin 30
      whole.machine.isFinished && whole.error.isNone && whole.calls == ["f(1)", "print(2)"]) =
      true := by decide +kernel
  have started : animatedStart 2 nestedCalls = (.ok (), (animatedStart 2 nestedCalls).2) :=
    Prod.ext (eq_ok_of_toOption accepted) rfl
  have native := Library.native_standard .builtIn
  obtain ⟨machine, found, _, goes⟩ := animation_goes_by_calls native rfl started
  obtain ⟨m, found', holds⟩ := (Option.any_eq_true _ _).1 runs
  cases found.symm.trans found'
  simp only [Bool.and_eq_true, Option.isNone_iff_eq_none, beq_iff_eq] at holds
  obtain ⟨⟨finished, fine⟩, calls⟩ := holds
  have ticks := fun n : Nat => goes 30 finished fine (List.replicate n 30) fun a mem =>
    Nat.le_of_eq (List.eq_of_mem_replicate mem).symm
  rw [calls] at ticks
  obtain ⟨_, ends, last⟩ := (ticks 4).call 1 (by decide) rfl
  obtain ⟨state, number⟩ := (ticks 8).finished (by decide)
  exact ⟨_, started, ends, last, (ticks 5).running (by decide), state, number⟩

def failingCall : FileContent := .bytes "substring(\"abc\",5,9);".toUTF8

/-- A tick that ends with a call which fails does not make it the last call of the run. -/
theorem failed_call_not_kept :
    ∃ r, animatedStart 1 failingCall = (.ok (), r) ∧
      (∃ first f span arity, (r.tickLogged 30).1 = first ++ [.invoke f span arity] ∧
        f.name = "substring") ∧
      (r.tick 30).2.lastCall = none := by
  have accepted : (animatedStart 1 failingCall).1.toOption = some () := by decide +kernel
  have ends : (((animatedStart 1 failingCall).2.tickLogged 30).1.getLast?.any fun item =>
      item.callee?.any fun f => f.name = "substring") = true := by decide +kernel
  have none : ((animatedStart 1 failingCall).2.tick 30).2.lastCall = none := by decide +kernel
  obtain ⟨item, last, callee⟩ := (Option.any_eq_true _ _).1 ends
  obtain ⟨f, calls, name⟩ := (Option.any_eq_true _ _).1 callee
  obtain ⟨span, arity, rfl⟩ := Work.eq_invoke_of_callee? calls
  obtain ⟨first, split_eq⟩ := List.getLast?_eq_some_iff.1 last
  exact ⟨_, Prod.ext (eq_ok_of_toOption accepted) rfl,
    ⟨first, f, span, arity, split_eq, by simpa using name⟩, none⟩

end CursorScript
