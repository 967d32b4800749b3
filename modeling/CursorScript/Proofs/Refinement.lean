import CursorScript.Proofs.Structured

/-!
The machine runs what the structured semantics says. Scheduled on top of any work and any waiting
values, an expression leaves exactly its value and a statement that ends normally leaves nothing; a
statement that ends in another way leads below the nearest pointer of its kind. Frames and context
are those of the structured semantics.
-/
namespace CursorScript

namespace Eval
variable {α β : Type}

theorem run_bind_ok {x : Eval α} {f : α → Eval β} {w w' : World} {a : α}
    (h : x.run.run w = .ok (some a) w') : (x >>= f).run.run w = (f a).run.run w' := by
  simp only [OptionT.run_bind, Option.elimM, EStateM.run_bind, h, Option.elim_some]

theorem run_bind_none {x : Eval α} {f : α → Eval β} {w w' : World}
    (h : x.run.run w = .ok none w') : (x >>= f).run.run w = .ok none w' := by
  simp only [OptionT.run_bind, Option.elimM, EStateM.run_bind, h, Option.elim_none, EStateM.run_pure]

theorem run_bind_error {x : Eval α} {f : α → Eval β} {w w' : World} {e : Error}
    (h : x.run.run w = .error e w') : (x >>= f).run.run w = .error e w' := by
  simp only [OptionT.run_bind, Option.elimM, EStateM.run_bind, h]

/-- A sequence has a result only if both of its parts have one. -/
theorem eq_ok_of_bind {x : Eval α} {f : α → Eval β} {w w'' : World} {b : β}
    (h : (x >>= f).run.run w = .ok (some b) w'') :
    ∃ a w', x.run.run w = .ok (some a) w' ∧ (f a).run.run w' = .ok (some b) w'' := by
  cases ran : x.run.run w with
  | ok a w' =>
    cases a with
    | none =>
      rw [run_bind_none ran] at h
      cases h
    | some a => exact ⟨a, w', rfl, run_bind_ok ran ▸ h⟩
  | error e w' =>
    rw [run_bind_error ran] at h
    cases h

theorem run_get (w : World) : (get : Eval World).run.run w = .ok (some w) w := rfl

theorem run_read (x : Nat) (w : World) :
    (read x).run.run w = .ok (w.frames.findSome? fun frame => frame.lookup x) w := rfl

theorem run_declare {w : World} {frame : Frame} {outer : List Frame}
    (h : w.frames = frame :: outer) (x : Nat) (v : Value) :
    (declare x v).run.run w =
      .ok (some ()) { w with frames := Frame.set x v frame :: outer } := by
  obtain ⟨frames, context⟩ := w
  cases h
  rfl

theorem run_assign {w : World} {x : Nat} {v : Value} {frames : List Frame}
    (h : Stack.replaceFirst? (Frame.assign? x v) w.frames = some frames) :
    (assign x v).run.run w = .ok (some ()) { w with frames := frames } := by
  have found : (known (Stack.replaceFirst? (Frame.assign? x v) w.frames)).run.run w =
      .ok (some frames) w := by rw [h]; rfl
  unfold assign
  rw [run_bind_ok (run_get w), run_bind_ok found]
  rfl

theorem run_assign_none {w : World} {x : Nat} {v : Value}
    (h : Stack.replaceFirst? (Frame.assign? x v) w.frames = none) :
    (assign x v).run.run w = .ok none w := by
  have missing : (known (Stack.replaceFirst? (Frame.assign? x v) w.frames)).run.run w =
      .ok none w := by rw [h]; rfl
  unfold assign
  rw [run_bind_ok (run_get w), run_bind_none missing]

end Eval

structure Place where
  frames : List Frame
  work : List Work
  values : List Value

namespace Machine

/-- A machine runs to an item that fails with `e`, in the frames and the context of `w`. -/
def FailsIn (a : Machine × Context) (e : Error) (w : World) : Prop :=
  ∃ b, Reaches a b ∧ b.1.frames.items = w.frames ∧ b.2 = w.context ∧
    ∃ m, b.1.step b.2 = ⟨.error e, m, b.2⟩

theorem FailsIn.of_perform {σ : Setting} {fs : List Frame} {W : List Work} {V : List Value}
    {c : Context} {item : Work} {e : Error} {m : Machine} (h : item.isInvoke = false)
    (failed : (perform item).run (σ.machine fs W V) = .error e m) :
    FailsIn (σ.machine fs (item :: W) V, c) e ⟨fs, c⟩ :=
  ⟨_, .refl, rfl, rfl, m, by simp [step_item h, failed, Step.ofResult]⟩

theorem FailsIn.of_reaches {a b : Machine × Context} {e : Error} {w : World}
    (run : Reaches a b) (h : FailsIn b e w) : FailsIn a e w := by
  obtain ⟨z, more, rest⟩ := h
  exact ⟨z, run.trans more, rest⟩

end Machine

open Machine

def Setting.at (σ : Setting) (place : Place) : Machine :=
  σ.machine place.frames place.work place.values

def spot (W : List Work) (V : List Value) (fs : List Frame) : Option Place := some ⟨fs, W, V⟩

/-- Where a statement leads. A return leaves the innermost frame. -/
def Ending.spot (K : List Work) (V : List Value) (ending : Ending) (fs : List Frame) :
    Option Place :=
  match ending with
  | .normal => some ⟨fs, K, V⟩
  | .broke => (Stack.listBelow Work.isBreakPointer K).map fun K' => ⟨fs, K', V⟩
  | .continued => (Stack.listBelow Work.isContinuePointer K).map fun K' => ⟨fs, K', V⟩
  | .returned v => (Stack.listBelow Work.isReturnPointer K).map fun K' => ⟨fs.tail, K', v :: V⟩

/-- A machine at `source` in the context `c` comes to what is said: to the place that `target` names
for a result and the frames at the end, or to an error. -/
def Arrives {α : Type} (σ : Setting) (source : Option Place) (c : Context)
    (target : α → List Frame → Option Place) : EStateM.Result Error World (Option α) → Prop
  | .ok (some a) w => ∀ place, target a w.frames = some place →
      ∃ origin, source = some origin ∧ Reaches (σ.at origin, c) (σ.at place, w.context)
  | .ok none _ => True
  | .error e w => ∃ origin, source = some origin ∧ FailsIn (σ.at origin, c) e w

/-- The machine does what `x` does, from where `source` says, given the frames at the beginning. -/
def Lands {α : Type} (σ : Setting) (x : Eval α) (source : List Frame → Option Place)
    (target : α → List Frame → Option Place) : Prop :=
  ∀ w : World, Arrives σ (source w.frames) w.context target (x.run.run w)

theorem Arrives.of_reaches {α : Type} {σ : Setting} {origin middle : Place} {c c' : Context}
    {target : α → List Frame → Option Place} {r : EStateM.Result Error World (Option α)}
    (h : Arrives σ (some middle) c' target r) (run : Reaches (σ.at origin, c) (σ.at middle, c')) :
    Arrives σ (some origin) c target r := by
  cases r with
  | ok a w =>
    cases a with
    | none => trivial
    | some a =>
      intro place found
      obtain ⟨_, here, later⟩ := h place found
      cases here
      exact ⟨origin, rfl, run.trans later⟩
  | error e w =>
    obtain ⟨_, here, failed⟩ := h
    cases here
    exact ⟨origin, rfl, failed.of_reaches run⟩

namespace Lands
variable {α β : Type} {σ : Setting} {source : List Frame → Option Place}
  {target : α → List Frame → Option Place} {W W' : List Work} {V V' : List Value}

theorem failure : Lands σ (failure : Eval α) source target := fun _ => trivial

theorem pure {a : α} (h : ∀ fs place, target a fs = some place → source fs = some place) :
    Lands σ (pure a) source target := fun w place found => ⟨place, h w.frames place found, .refl⟩

/-- An item that changes neither frames nor context can come first. -/
theorem step {x : Eval α}
    (h : ∀ fs c, Next (σ.machine fs W V, c) (σ.machine fs W' V', c))
    (rest : Lands σ x (spot W' V') target) : Lands σ x (spot W V) target :=
  fun w => (rest w).of_reaches (.single (h w.frames w.context))

/-- One last item may change the frames. -/
theorem pureNext {a : α} (h : ∀ fs c place, target a fs = some place →
    Next (σ.machine fs W V, c) (σ.at place, c)) : Lands σ (Pure.pure a) (spot W V) target :=
  fun w place found => ⟨_, rfl, .single (h w.frames w.context place found)⟩

/-- What comes after a result goes on from where that result leads. -/
theorem bindResult {x : Eval α} {f : α → Eval β} {target' : β → List Frame → Option Place}
    (first : Lands σ x source target)
    (second : ∀ a w w', x.run.run w = .ok (some a) w' → Lands σ (f a) (target a) target') :
    Lands σ (x >>= f) source target' := by
  intro w
  have done := first w
  cases ran : x.run.run w with
  | ok a w' =>
    cases a with
    | none =>
      rw [Eval.run_bind_none ran]
      trivial
    | some a =>
      rw [ran] at done
      have next := second a w w' ran w'
      rw [Eval.run_bind_ok ran]
      revert next
      cases (f a).run.run w' with
      | ok b w'' =>
        cases b with
        | none => exact fun _ => trivial
        | some b =>
          intro next place found
          obtain ⟨middle, there, later⟩ := next place found
          obtain ⟨origin, here, run⟩ := done middle there
          exact ⟨origin, here, run.trans later⟩
      | error e w'' =>
        rintro ⟨middle, there, failed⟩
        obtain ⟨origin, here, run⟩ := done middle there
        exact ⟨origin, here, failed.of_reaches run⟩
  | error e w' =>
    rw [ran] at done
    rw [Eval.run_bind_error ran]
    exact done

theorem bind {x : Eval α} {f : α → Eval β} {target' : β → List Frame → Option Place}
    (first : Lands σ x source target) (second : ∀ a, Lands σ (f a) (target a) target') :
    Lands σ (x >>= f) source target' := first.bindResult fun a _ _ _ => second a

/-- Only what was found has to be looked at. -/
theorem known {entry : Option α} {f : α → Eval β} {target' : β → List Frame → Option Place}
    (h : ∀ a, entry = some a → Lands σ (f a) source target') :
    Lands σ (Eval.known entry >>= f) source target' := by
  cases entry with
  | none => exact failure
  | some a => exact h a rfl

end Lands

section
variable {σ : Setting} {K : List Work} {V : List Value}

theorem lands_applyBinary (op : Operator) (p : Position) (a b : Value) :
    Lands σ (Eval.located p (op.applyBinary a b)) (spot (.applyBinary op p :: K) (b :: a :: V))
      fun v => spot K (v :: V) := by
  intro w
  cases applied : op.applyBinary a b with
  | ok v =>
    rintro place ⟨⟩
    exact ⟨_, rfl, .single (next_of_perform rfl (perform_applyBinary applied p))⟩
  | error cause => exact ⟨_, rfl, .of_perform rfl (perform_applyBinary_error applied p)⟩

theorem lands_applyUnary (op : Operator) (p : Position) (a : Value) :
    Lands σ (Eval.located p (op.applyUnary a)) (spot (.applyUnary op p :: K) (a :: V))
      fun v => spot K (v :: V) := by
  intro w
  cases applied : op.applyUnary a with
  | ok v =>
    rintro place ⟨⟩
    exact ⟨_, rfl, .single (next_of_perform rfl (perform_applyUnary applied p))⟩
  | error cause => exact ⟨_, rfl, .of_perform rfl (perform_applyUnary_error applied p)⟩

theorem lands_symbol {s : Symbol} {x : Nat} (recorded : σ.tables.symbols.get? s.mark.id = some x) :
    Lands σ (Eval.read x) (spot (.expr (.symbol s) :: K) V) fun v => spot K (v :: V) := by
  intro w
  rw [Eval.run_read]
  cases held : w.frames.findSome? (fun frame => frame.lookup x) with
  | none => trivial
  | some v =>
    rintro place ⟨⟩
    exact ⟨_, rfl, .single (next_of_perform rfl (perform_symbol recorded held))⟩

theorem lands_leaveCall (v : Value) (p : Position) :
    Lands σ (pure (Ending.returned v)) (spot (.leaveCall p :: K) (v :: V)) (Ending.spot K V) := by
  refine .pureNext fun fs c place found => ?_
  obtain ⟨K', below, rfl⟩ := Option.map_eq_some_iff.1 found
  exact next_of_perform rfl (perform_leaveCall below p)

theorem lands_break (mark : Mark) :
    Lands σ (pure Ending.broke) (spot (.stmt (.brk mark) :: K) V) (Ending.spot K V) := by
  refine .pureNext fun fs c place found => ?_
  obtain ⟨K', below, rfl⟩ := Option.map_eq_some_iff.1 found
  exact next_of_perform rfl (perform_break below mark)

theorem lands_continue (mark : Mark) :
    Lands σ (pure Ending.continued) (spot (.stmt (.cont mark) :: K) V) (Ending.spot K V) := by
  refine .pureNext fun fs c place found => ?_
  obtain ⟨K', below, rfl⟩ := Option.map_eq_some_iff.1 found
  exact next_of_perform rfl (perform_continue below mark)

theorem lands_declare (x : Nat) (v : Value) (p : Position) :
    Lands σ (Eval.declare x v >>= fun _ => pure Ending.normal)
      (spot (.declare x p :: K) (v :: V)) (Ending.spot K V) := by
  intro w
  cases frames : w.frames with
  | nil =>
    have ran : (Eval.declare x v).run.run w = .ok none w := by
      obtain ⟨fs, context⟩ := w
      cases frames
      rfl
    rw [Eval.run_bind_none ran]
    trivial
  | cons frame outer =>
    rw [Eval.run_bind_ok (Eval.run_declare frames x v)]
    rintro place ⟨⟩
    exact ⟨_, rfl, .single (next_of_perform rfl (by simp [perform]; rfl))⟩

theorem lands_store (x : Nat) (v : Value) (p : Position) :
    Lands σ (Eval.assign x v >>= fun _ => pure Ending.normal)
      (spot (.store x none p :: K) (v :: V)) (Ending.spot K V) := by
  intro w
  cases replaced : Stack.replaceFirst? (Frame.assign? x v) w.frames with
  | none =>
    rw [Eval.run_bind_none (Eval.run_assign_none replaced)]
    trivial
  | some frames =>
    rw [Eval.run_bind_ok (Eval.run_assign replaced)]
    rintro place ⟨⟩
    exact ⟨_, rfl, .single (next_of_perform rfl (perform_store replaced p))⟩

/-- A compound assignment reads its target when its right side has been evaluated. -/
theorem lands_storeResult (x : Nat) (op : Operator) (v : Value) (p : Position) :
    Lands σ
      (do
        let current ← Eval.read x
        Eval.assign x (← Eval.located p (op.applyBinary current v))
        return Ending.normal)
      (spot (.store x (some op) p :: K) (v :: V)) (Ending.spot K V) := by
  intro w
  cases held : w.frames.findSome? (fun frame => frame.lookup x) with
  | none =>
    have ran : (Eval.read x).run.run w = .ok none w := by rw [Eval.run_read, held]
    rw [Eval.run_bind_none ran]
    trivial
  | some current =>
    have ran : (Eval.read x).run.run w = .ok (some current) w := by rw [Eval.run_read, held]
    rw [Eval.run_bind_ok ran]
    cases applied : op.applyBinary current v with
    | error cause => exact ⟨_, rfl, .of_perform rfl (perform_store_error held applied p)⟩
    | ok result =>
      have computed : (Eval.located p (.ok result)).run.run w = .ok (some result) w := rfl
      rw [Eval.run_bind_ok computed]
      cases replaced : Stack.replaceFirst? (Frame.assign? x result) w.frames with
      | none =>
        rw [Eval.run_bind_none (Eval.run_assign_none replaced)]
        trivial
      | some frames =>
        rw [Eval.run_bind_ok (Eval.run_assign replaced)]
        rintro place ⟨⟩
        exact ⟨_, rfl, .single (next_of_perform rfl (perform_storeResult held applied replaced p))⟩

end

namespace Meaning
variable (M : Meaning)

theorem length_of_exprs {es : List Expr} {vs : List Value} {w w' : World}
    (h : (M.exprs es).run.run w = .ok (some vs) w') : vs.length = es.length := by
  induction es generalizing vs w w' with
  | nil =>
    cases h
    rfl
  | cons e rest ih =>
    obtain ⟨v, w₁, -, h⟩ := Eval.eq_ok_of_bind h
    obtain ⟨others, w₂, ran, h⟩ := Eval.eq_ok_of_bind h
    cases h
    simp [ih ran]

/-- The pieces of a text can be joined once all that is embedded has been evaluated. -/
theorem text_eq (parts : List (Part Expr)) :
    M.text parts = M.exprs (Part.embedded parts) >>= fun vs => pure (joinParts parts vs) := by
  induction parts with
  | nil => simp [text, exprs, Part.embedded, joinParts]
  | cons part rest ih =>
    cases part with
    | text chars => simp [text, Part.embedded, joinParts, ih]
    | embed e => simp [text, exprs, Part.embedded, joinParts, ih]

/-- The entries of a map can be paired once all keys and values have been evaluated. -/
theorem entries_eq (es : List (Expr × Expr)) :
    M.entries es = M.exprs (entryOperands es) >>= fun vs => pure (pairs vs) := by
  induction es with
  | nil => simp [entries, exprs, entryOperands, pairs]
  | cons entry rest ih =>
    obtain ⟨k, v⟩ := entry
    have operands : entryOperands ((k, v) :: rest) = k :: v :: entryOperands rest := by
      simp [entryOperands]
    simp [entries, exprs, operands, pairs, ih]

end Meaning

/-- Leaving a call, whether its body ended or returned. -/
theorem lands_leave (σ : Setting) (ending : Ending) (K : List Work) (V : List Value) :
    Lands σ
      (do
        modify fun w => { w with frames := w.frames.tail }
        Meaning.result ending)
      (Ending.spot (.pushUnit :: .returnPointer :: K) V ending) fun v => spot K (v :: V) := by
  intro w
  cases ending with
  | normal =>
    rintro place ⟨⟩
    refine ⟨_, rfl, .tail (.single ?_) (next_of_perform rfl perform_returnPointer)⟩
    exact next_of_perform rfl (run_push .unit)
  | broke => trivial
  | continued => trivial
  | returned v =>
    rintro place ⟨⟩
    exact ⟨_, rfl, .refl⟩

structure Realizes (σ : Setting) (M : Meaning) : Prop where
  expr : ∀ e K V, Lands σ (M.expr e) (spot (.expr e :: K) V) fun v => spot K (v :: V)
  stmt : ∀ s K V, Lands σ (M.stmt s) (spot (.stmt s :: K) V) (Ending.spot K V)
  loop : ∀ mark condition body K V,
    Lands σ (M.loop condition body)
      (spot (.expr condition :: .whileTest mark condition body :: K) V) (Ending.spot K V)

namespace Realizes
variable {σ : Setting} {M : Meaning} (R : Realizes σ M)
include R

theorem exprs (es : List Expr) (K : List Work) (V : List Value) :
    Lands σ (M.exprs es) (spot (operands es ++ K) V) fun vs => spot K (vs.reverse ++ V) := by
  induction es generalizing V with
  | nil => exact .pure fun fs place found => found
  | cons e rest ih =>
    refine (R.expr e (operands rest ++ K) V).bind fun v => (ih (v :: V)).bind fun vs => ?_
    refine .pure fun fs place found => ?_
    simpa [spot] using found

/-- The pointers that statements lead to are not among the statements that follow in a block. -/
theorem stmts (ss : List Stmt) (K : List Work) (V : List Value) :
    Lands σ (M.stmts ss) (spot (ss.map .stmt ++ K) V) (Ending.spot K V) := by
  induction ss with
  | nil => exact .pure fun fs place found => found
  | cons s rest ih =>
    have passed : ∀ isTarget : Work → Bool, (∀ s, isTarget (.stmt s) = false) →
        Stack.listBelow isTarget (rest.map .stmt ++ K) = Stack.listBelow isTarget K := by
      intro isTarget miss
      refine Stack.listBelow_append (fun item mem => ?_) K
      obtain ⟨s, -, rfl⟩ := List.mem_map.1 mem
      exact miss s
    refine (R.stmt s (rest.map .stmt ++ K) V).bind fun ending => ?_
    cases ending with
    | normal => exact ih
    | broke =>
      refine .pure fun fs place found => ?_
      simpa only [Ending.spot, passed Work.isBreakPointer fun _ => rfl] using found
    | continued =>
      refine .pure fun fs place found => ?_
      simpa only [Ending.spot, passed Work.isContinuePointer fun _ => rfl] using found
    | returned v =>
      refine .pure fun fs place found => ?_
      simpa only [Ending.spot, passed Work.isReturnPointer fun _ => rfl] using found

theorem script {f : Function} {decl : FunctionDecl Stmt} (body : f.body = .script decl)
    (span : Span) (arguments : List Value) (K : List Work) (V : List Value) :
    Lands σ (M.script σ decl span arguments)
      (spot (.invoke f span arguments.length :: K) (arguments.reverse ++ V))
      fun v => spot K (v :: V) := by
  intro w
  unfold Meaning.script
  rw [Eval.run_bind_ok (Eval.run_get w)]
  by_cases deep : σ.maxDepth ≤ w.frames.length - 1
  · rw [if_pos deep]
    exact ⟨_, rfl, _, .refl, rfl, rfl, _, step_script_deep body rfl deep span⟩
  · rw [if_neg deep]
    cases bound : σ.bind? decl.parameters arguments [] with
    | none => trivial
    | some frame =>
      have room := Nat.lt_of_not_le deep
      have inside := (R.stmts decl.body.body (.pushUnit :: .returnPointer :: K) V).bind
        (fun ending => lands_leave σ ending K V) ⟨frame :: w.frames, w.context⟩
      exact inside.of_reaches (.single ⟨_, step_script body rfl room bound span⟩)

theorem call (f : Function) (span : Span) {arguments : List Value} {arity : Nat}
    (count : arguments.length = arity) (K : List Work) (V : List Value) :
    Lands σ (M.call σ f span arguments)
      (spot (.invoke f span arity :: K) (arguments.reverse ++ V)) fun v => spot K (v :: V) := by
  subst count
  unfold Meaning.call
  split
  · next run body =>
    intro w
    unfold Meaning.native
    rw [Eval.run_bind_ok (Eval.run_get w)]
    cases answered : run w.context arguments with
    | error message =>
      exact ⟨_, rfl, _, .refl, rfl, rfl, _, step_native_error body rfl answered span⟩
    | ok answer =>
      rintro place ⟨⟩
      exact ⟨_, rfl, .single ⟨_, step_native body rfl answered span⟩⟩
  · next decl body => exact R.script body span arguments K V

/-- A round leads back to the loop, and leaving it leads below the loop's items. -/
theorem round {body : Block Stmt} {next : Loop} {after : Eval Ending} {K : List Work}
    {V : List Value}
    (h : Lands σ after (spot (.again next :: .breakPointer :: K) V) (Ending.spot K V)) :
    Lands σ (M.round body after)
      (spot (itemsOf body ++ .continuePointer :: .again next :: .breakPointer :: K) V)
      (Ending.spot K V) := by
  refine (R.stmts body.body _ V).bind fun ending => ?_
  cases ending with
  | normal => exact .step (fun fs c => next_of_perform rfl rfl) h
  | continued => exact h
  | broke => exact .pure fun fs place found => found
  | returned v => exact .pure fun fs place found => found

theorem times (body : Block Stmt) (n : Nat) (K : List Work) (V : List Value) :
    Lands σ (M.times body n) (spot (timesWork body K n) V) (Ending.spot K V) := by
  induction n with
  | zero => exact .pure fun fs place found => found
  | succ n ih =>
    exact R.round (.step (fun fs c => next_of_perform rfl (perform_again_times n body)) ih)

theorem whileTrue (mark : Mark) (condition : Expr) (body : Block Stmt) (K : List Work)
    (V : List Value) :
    Lands σ (M.whileTrue condition body)
      (spot (.expr condition :: .whileTest mark condition body :: K) V) (Ending.spot K V) := by
  refine (R.expr condition _ V).bind fun v => ?_
  cases v with
  | logic b =>
    refine .step (fun fs c => next_of_perform rfl (perform_whileTest b mark condition body)) ?_
    cases b with
    | true =>
      exact R.round (.step
        (fun fs c => next_of_perform rfl (perform_again_while mark condition body))
        (R.loop mark condition body K V))
    | false => exact .pure fun fs place found => found
  | _ => exact .failure

theorem ofExpr (e : Expr) (K : List Work) (V : List Value) :
    Lands σ (M.ofExpr σ e) (spot (.expr e :: K) V) fun v => spot K (v :: V) := by
  have leaf : ∀ v, (∀ fs c, Next (σ.machine fs (.expr e :: K) V, c) (σ.machine fs K (v :: V), c)) →
      Lands σ (Pure.pure v) (spot (.expr e :: K) V) fun v => spot K (v :: V) :=
    fun v next => .step next (.pure fun fs place found => found)
  cases e with
  | number mark n => exact leaf _ fun fs c => next_of_perform rfl (run_push _)
  | real mark x => exact leaf _ fun fs c => next_of_perform rfl (run_push _)
  | logic mark b => exact leaf _ fun fs c => next_of_perform rfl (run_push _)
  | string mark s => exact leaf _ fun fs c => next_of_perform rfl (run_push _)
  | material mark space name => exact leaf _ fun fs c => next_of_perform rfl (run_push _)
  | member mark name => exact leaf _ fun fs c => next_of_perform rfl (run_push _)
  | symbol s => exact .known fun x recorded => lands_symbol recorded
  | interpolation mark parts =>
    simp only [Meaning.ofExpr, Meaning.text_eq, bind_assoc, pure_bind]
    refine .step (fun fs c => next_of_perform rfl (perform_interpolation mark parts)) ?_
    refine (R.exprs _ _ V).bindResult fun vs w w' ran => ?_
    have count := M.length_of_exprs ran
    exact .step (fun fs c => next_of_perform rfl (perform_joinText count mark.start))
      (.pure fun fs place found => found)
  | binary mark left token right =>
    refine .known fun op recorded => ?_
    refine .step (fun fs c => next_of_perform rfl (perform_binary recorded left token right)) ?_
    refine (R.expr left _ V).bind fun a => (R.expr right _ _).bind fun b => ?_
    exact lands_applyBinary op _ a b
  | unary mark token operand =>
    refine .known fun op recorded => ?_
    refine .step (fun fs c => next_of_perform rfl (perform_unary recorded token operand)) ?_
    exact (R.expr operand _ V).bind fun a => lands_applyUnary op _ a
  | index mark collection index =>
    refine .known fun op recorded => ?_
    refine .step (fun fs c => next_of_perform rfl (perform_index recorded collection index)) ?_
    refine (R.expr collection _ V).bind fun a => (R.expr index _ _).bind fun b => ?_
    exact lands_applyBinary op _ a b
  | call mark callee arguments =>
    refine .known fun f recorded => ?_
    refine .step (fun fs c => next_of_perform rfl (perform_call recorded callee arguments)) ?_
    refine (R.exprs arguments _ V).bindResult fun vs w w' ran => ?_
    exact R.call f mark.span (M.length_of_exprs ran) K V
  | list mark elements =>
    refine .step (fun fs c => next_of_perform rfl (perform_list mark elements)) ?_
    refine (R.exprs elements _ V).bindResult fun vs w w' ran => ?_
    have count := M.length_of_exprs ran
    exact .step (fun fs c => next_of_perform rfl (perform_makeList count mark.start))
      (.pure fun fs place found => found)
  | map mark entries =>
    simp only [Meaning.ofExpr, Meaning.entries_eq, bind_assoc, pure_bind]
    refine .step (fun fs c => next_of_perform rfl (perform_map mark entries)) ?_
    refine (R.exprs _ _ V).bindResult fun vs w w' ran => ?_
    have count := (M.length_of_exprs ran).trans (length_entryOperands entries)
    exact .step (fun fs c => next_of_perform rfl (perform_makeMap count mark.start))
      (.pure fun fs place found => found)

theorem ofStmt (s : Stmt) (K : List Work) (V : List Value) :
    Lands σ (M.ofStmt σ s) (spot (.stmt s :: K) V) (Ending.spot K V) := by
  cases s with
  | block b =>
    exact .step (fun fs c => next_of_perform rfl (perform_block b)) (R.stmts b.body K V)
  | expression mark e =>
    refine .step (fun fs c => next_of_perform rfl (perform_expression mark e)) ?_
    refine (R.expr e _ V).bind fun v => ?_
    exact .step (fun fs c => next_of_perform rfl rfl) (.pure fun fs place found => found)
  | declare mark name type value =>
    refine .known fun x recorded => ?_
    refine .step (fun fs c => next_of_perform rfl (perform_declaration recorded name type value)) ?_
    exact (R.expr value _ V).bind fun v => lands_declare x v _
  | assign mark target token value =>
    refine .known fun x recorded => ?_
    by_cases plain : token.kind = .assignment
    · rw [if_pos plain]
      refine .step (fun fs c => next_of_perform rfl (perform_assignment recorded plain value)) ?_
      exact (R.expr value _ V).bind fun v => lands_store x v _
    · rw [if_neg plain]
      refine .known fun op chosen => ?_
      refine .step
        (fun fs c => next_of_perform rfl (perform_compound recorded plain chosen value)) ?_
      exact (R.expr value _ V).bind fun v => lands_storeResult x op v _
  | branch mark condition body other =>
    refine .step (fun fs c => next_of_perform rfl (perform_branch mark condition body other)) ?_
    refine (R.expr condition _ V).bind fun v => ?_
    cases v with
    | logic b =>
      refine .step (fun fs c => next_of_perform rfl (perform_choose b mark.start body other)) ?_
      cases b with
      | true => exact R.stmts body.body K V
      | false => exact R.stmts other.toList K V
    | _ => exact .failure
  | whileLoop mark condition body =>
    exact .step (fun fs c => next_of_perform rfl (perform_whileLoop mark condition body))
      (R.whileTrue mark condition body K V)
  | repeatLoop mark count body =>
    refine .step (fun fs c => next_of_perform rfl (perform_repeatLoop mark count body)) ?_
    refine (R.expr count _ V).bind fun v => ?_
    cases v with
    | number n =>
      exact .step (fun fs c => next_of_perform rfl (perform_repeatCount n mark.start body))
        (R.times body n.toNat K V)
    | _ => exact .failure
  | function decl =>
    exact .step (fun fs c => next_of_perform rfl rfl) (.pure fun fs place found => found)
  | ret mark value =>
    cases value with
    | none =>
      exact .step (fun fs c => next_of_perform rfl (perform_bareReturn mark))
        (lands_leaveCall .unit _)
    | some value =>
      refine .step (fun fs c => next_of_perform rfl (perform_return mark value)) ?_
      exact (R.expr value _ V).bind fun v => lands_leaveCall v _
  | brk mark => exact lands_break mark
  | cont mark => exact lands_continue mark

end Realizes

/-- The machine does what the structured semantics says, whatever its bound. -/
theorem realizes_meaning (σ : Setting) (bound : Nat) : Realizes σ (σ.meaning bound) := by
  induction bound with
  | zero =>
    exact ⟨fun _ _ _ => .failure, fun _ _ _ => .failure, fun _ _ _ _ _ => .failure⟩
  | succ bound R => exact ⟨R.ofExpr, R.ofStmt, R.whileTrue⟩

/-- Where a machine goes on when a statement on top of the work `K` and the values `O` has ended. The
dropped items hold no pointer of the kind looked for, so the pointer is the nearest. -/
inductive Ending.Resumes (K : List Work) (O : List Value) (fs : List Frame) :
    Ending → Place → Prop
  | normal : Resumes K O fs .normal ⟨fs, K, O⟩
  | broke {dropped K' : List Work} (split : K = dropped ++ .breakPointer :: K')
      (nearest : ∀ item ∈ dropped, item.isBreakPointer = false) :
      Resumes K O fs .broke ⟨fs, K', O⟩
  | continued {dropped K' : List Work} (split : K = dropped ++ .continuePointer :: K')
      (nearest : ∀ item ∈ dropped, item.isContinuePointer = false) :
      Resumes K O fs .continued ⟨fs, K', O⟩
  | returned {dropped K' : List Work} {v : Value} (split : K = dropped ++ .returnPointer :: K')
      (nearest : ∀ item ∈ dropped, item.isReturnPointer = false) :
      Resumes K O fs (.returned v) ⟨fs.tail, K', v :: O⟩

theorem Ending.Resumes.spot_eq {K : List Work} {O : List Value} {fs : List Frame}
    {ending : Ending} {place : Place} (h : ending.Resumes K O fs place) :
    ending.spot K O fs = some place := by
  cases h with
  | normal => rfl
  | broke split nearest =>
    simp [Ending.spot, split, Stack.listBelow_append nearest, Stack.listBelow, Work.isBreakPointer]
  | continued split nearest =>
    simp [Ending.spot, split, Stack.listBelow_append nearest, Stack.listBelow,
      Work.isContinuePointer]
  | returned split nearest =>
    simp [Ending.spot, split, Stack.listBelow_append nearest, Stack.listBelow,
      Work.isReturnPointer]

/-- The machine refines the structured semantics. Whatever the tables and the limit on calls, on top
of any work `K` and any values `O`: an expression that has a value runs to exactly `K` with the value
on top of `O`, a statement runs to where its ending resumes, and either fails where the structured
semantics fails; frames and context are those that the structured semantics leaves. -/
theorem machine_refines_structured (σ : Setting) (w w' : World) (K : List Work)
    (O : List Value) :
    (∀ e v, σ.Evaluates w e v w' →
      Reaches (σ.machine w.frames (.expr e :: K) O, w.context)
        (σ.machine w'.frames K (v :: O), w'.context)) ∧
    (∀ s ending place, σ.Executes w s ending w' → ending.Resumes K O w'.frames place →
      Reaches (σ.machine w.frames (.stmt s :: K) O, w.context) (σ.at place, w'.context)) ∧
    (∀ e error, σ.EvaluationFails w e error w' →
      FailsIn (σ.machine w.frames (.expr e :: K) O, w.context) error w') ∧
    (∀ s error, σ.ExecutionFails w s error w' →
      FailsIn (σ.machine w.frames (.stmt s :: K) O, w.context) error w') := by
  refine ⟨?_, ?_, ?_, ?_⟩
  · rintro e v ⟨bound, ran⟩
    have arrives := (realizes_meaning σ bound).expr e K O w
    rw [ran] at arrives
    obtain ⟨_, here, run⟩ := arrives _ rfl
    cases here
    exact run
  · rintro s ending place ⟨bound, ran⟩ resumes
    have arrives := (realizes_meaning σ bound).stmt s K O w
    rw [ran] at arrives
    obtain ⟨_, here, run⟩ := arrives _ resumes.spot_eq
    cases here
    exact run
  · rintro e error ⟨bound, ran⟩
    have arrives := (realizes_meaning σ bound).expr e K O w
    rw [ran] at arrives
    obtain ⟨_, here, failed⟩ := arrives
    cases here
    exact failed
  · rintro s error ⟨bound, ran⟩
    have arrives := (realizes_meaning σ bound).stmt s K O w
    rw [ran] at arrives
    obtain ⟨_, here, failed⟩ := arrives
    cases here
    exact failed

namespace Returning

def mark (id : Nat) : Mark := ⟨id, default⟩

def first : FunctionDecl Stmt :=
  ⟨mark 9, "first", [], some .number, ⟨mark 8,
    [.whileLoop (mark 7) (.logic (mark 6) true) ⟨mark 5,
      [.repeatLoop (mark 4) (.number (mark 3) 2) ⟨mark 2,
        [.ret (mark 1) (some (.number (mark 0) 5))]⟩]⟩]⟩⟩

def setting : Setting :=
  ⟨⟨.empty, ⟨.insert ∅ 10 (.ofDecl first)⟩, ⟨.insert ∅ 11 .divideNumbers⟩⟩, 8⟩

def call : Expr := .call (mark 10) "first" []

def quotient : Expr := .binary (mark 11) call ⟨.slash, "/", default⟩ (.number (mark 12) 0)

/-- Inside a call, with a round of a loop to leave. -/
def world : World := ⟨[[], []], Context.initial "" 0⟩

def pending : List Work :=
  [.continuePointer, .again (.times 0 first.body), .breakPointer, .returnPointer]

end Returning

open Returning in
/-- A value, a `return` out of a loop and a failure, each after a call that returns from loops. -/
theorem machine_refines_structured_returning :
    (setting.Evaluates world call (.number 5) world ∧
      Reaches (setting.machine world.frames (.expr call :: pending) [], world.context)
        (setting.machine world.frames pending [.number 5], world.context)) ∧
    (setting.Executes world (.ret (mark 13) (some call)) (.returned (.number 5)) world ∧
      Reaches (setting.machine world.frames (.stmt (.ret (mark 13) (some call)) :: pending) [],
        world.context) (setting.machine [[]] [] [.number 5], world.context)) ∧
    (setting.EvaluationFails world quotient ⟨.divisionByZero, default⟩ world ∧
      FailsIn (setting.machine world.frames (.expr quotient :: pending) [], world.context)
        ⟨.divisionByZero, default⟩ world) ∧
    (setting.ExecutionFails world (.expression (mark 13) quotient) ⟨.divisionByZero, default⟩ world ∧
      FailsIn (setting.machine world.frames (.stmt (.expression (mark 13) quotient) :: pending) [],
        world.context) ⟨.divisionByZero, default⟩ world) := by
  obtain ⟨values, endings, faults, failures⟩ :=
    machine_refines_structured setting world world pending []
  have evaluates : setting.Evaluates world call (.number 5) world := ⟨8, rfl⟩
  have executes : setting.Executes world (.ret (mark 13) (some call)) (.returned (.number 5)) world :=
    ⟨9, rfl⟩
  have fails : setting.EvaluationFails world quotient ⟨.divisionByZero, default⟩ world := ⟨9, rfl⟩
  have stops : setting.ExecutionFails world (.expression (mark 13) quotient)
      ⟨.divisionByZero, default⟩ world := ⟨10, rfl⟩
  have resumes : (Ending.returned (.number 5)).Resumes pending [] world.frames
      ⟨[[]], [], [.number 5]⟩ :=
    @Ending.Resumes.returned _ _ _ (pending.take 3) [] _ rfl (by decide)
  exact ⟨⟨evaluates, values _ _ evaluates⟩, ⟨executes, endings _ _ _ executes resumes⟩,
    ⟨fails, faults _ _ fails⟩, ⟨stops, failures _ _ stops⟩⟩

end CursorScript
