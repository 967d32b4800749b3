import CursorScript.Proofs.Maps

/-!
What scripts get from the standard library. A call of one of its functions that leaves the context
alone either puts one value in the place of the arguments or fails with a message, whatever else the
machine holds.
-/
namespace CursorScript

theorem Work.failsOn_invoke {f : Function} {run : NativeBody} {taken : List Value}
    {message : String}
    (native : f.body = .native run) (refused : ∀ c, run c taken = .error message) (span : Span) :
    (invoke f span taken.length).FailsOn taken ⟨.nativeCallFailed f.name message, span.start⟩ := by
  intro σ fs W V c
  rw [Machine.step_native_error native rfl (refused c) span]

theorem Work.FailsOn.unique {item : Work} {taken : List Value} {e e' : Error}
    (h : item.FailsOn taken e) (h' : item.FailsOn taken e') : e = e' := by
  have first := h ⟨.empty, 0⟩ [] [] [] (.initial "" 0)
  have second := h' ⟨.empty, 0⟩ [] [] [] (.initial "" 0)
  simpa using first.symm.trans second

/-- A host function that leaves the context alone gives what it makes of its arguments. -/
theorem HostFunction.call_eq {host : HostFunction} {arguments : List Value}
    {data : HostType.Carriers host.parameters} {made : Except String (HostType.Answer host.returns)}
    (read : HostType.readAll host.parameters arguments = .ok data)
    (ran : ∀ c, host.run data c = made.map (·, c)) (c : Context) :
    host.call c arguments = (made.map (HostType.writeAnswer host.returns)).map (·, c) := by
  unfold call
  rw [read]
  change host.run data c >>= _ = _
  rw [ran]
  cases made <;> rfl

namespace Library

/-- Called with arguments of these types, the function of a name gives a script a value or fails
with a message. -/
def Replies (outside : Outside) (name : String) (types : List Ty) (arguments : List Value) :
    Except String Value → Prop
  | .ok v => ∃ f, (standard outside).function? name types = some f ∧
    ∀ span, (Work.invoke f span arguments.length).Answers arguments v
  | .error message => ∃ f, (standard outside).function? name types = some f ∧
    ∀ span, (Work.invoke f span arguments.length).FailsOn arguments
      ⟨.nativeCallFailed name message, span.start⟩

variable {outside : Outside} {name : String} {types : List Ty} {arguments : List Value}
  {reply reply' : Except String Value}

theorem replies_of_function? {f : Function} {run : NativeBody}
    (resolved : (standard outside).function? name types = some f) (named : f.name = name)
    (native : f.body = .native run) (answered : ∀ c, run c arguments = reply.map (·, c)) :
    Replies outside name types arguments reply := by
  cases reply with
  | ok v => exact ⟨f, resolved, Work.answers_invoke native answered⟩
  | error message =>
    have failed := Work.failsOn_invoke native answered
    rw [named] at failed
    exact ⟨f, resolved, failed⟩

theorem Replies.unique (h : Replies outside name types arguments reply)
    (h' : Replies outside name types arguments reply') : reply = reply' := by
  cases reply with
  | ok v =>
    obtain ⟨f, resolved, answers⟩ := h
    cases reply' with
    | ok w =>
      obtain ⟨f', resolved', answers'⟩ := h'
      cases resolved.symm.trans resolved'
      exact congrArg _ ((answers default).unique (answers' default))
    | error message =>
      obtain ⟨f', resolved', fails'⟩ := h'
      cases resolved.symm.trans resolved'
      exact absurd (fails' default) (Work.not_failsOn_of_answers (answers default))
  | error message =>
    obtain ⟨f, resolved, fails⟩ := h
    cases reply' with
    | ok w =>
      obtain ⟨f', resolved', answers'⟩ := h'
      cases resolved.symm.trans resolved'
      exact absurd (fails default) (Work.not_failsOn_of_answers (answers' default))
    | error message' =>
      obtain ⟨f', resolved', fails'⟩ := h'
      cases resolved.symm.trans resolved'
      have same := (fails default).unique (fails' default)
      simpa using same

/-- A call has one reply. -/
theorem Replies.iff (h : Replies outside name types arguments reply) :
    Replies outside name types arguments reply' ↔ reply' = reply :=
  ⟨fun h' => h'.unique h, fun same => same ▸ h⟩

end Library
end CursorScript
