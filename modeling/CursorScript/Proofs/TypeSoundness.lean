import CursorScript.BuiltIn
import CursorScript.Proofs.AnalysisSoundness
import CursorScript.Proofs.Preservation

/-!
What holds of every machine that a checked script reaches. Its stacks fit each other, so that it
fails for the values it meets only, its variables have values of their types, and its calls end with
one value of the declared type.
-/
namespace CursorScript

namespace Machine

section fitted
variable {L : Layout} {σ : Setting} {P : Point} {callers : List Caller} {m : Machine}

/-- Each active call but the innermost waits for another. -/
theorem Fitted.depth_eq (h : m.Fitted L σ P callers) : m.depth = callers.length := by
  have lengths := h.typed.placed.standing.length_eq
  rw [depth, m.frames.size_eq, ← lengths]
  simp

theorem Fitted.moves (h : m.Fitted L σ P callers) (tables : σ.tables = L.tables)
    (sound : ∀ site ∈ L.sites, L.Sound site) (c : Context) : L.Moves P callers m c := by
  have moves := h.typed.moves tables sound c
  rwa [← h.setting, ← eq_machine] at moves

end fitted

end Machine

theorem Program.fitted_initial {p : Program} {library : Library} {refuses : Refusal}
    {tables : Tables} (sound : p.Sound library refuses tables) (maxDepth : Nat) :
    (Machine.initial p tables maxDepth).Fitted (p.layout library refuses tables)
      ⟨tables, maxDepth⟩ .top [] := by
  refine ⟨rfl, ⟨rfl, .none, ?_⟩, [], .resume ?_, .base⟩
  · exact .script rfl (by simp [Layout.Owned, Point.top]) (by simp [Layout.FrameFits])
      (by simp [Layout.Covers, Point.top])
  · have items := @Layout.Resumes.items _ none _ _ [] _ True sound.body (.refl _)
      (.finish rfl rfl rfl)
    rwa [List.append_nil] at items

namespace Machine

section runs
variable {L : Layout} {σ : Setting} {P : Point} {callers : List Caller} {a b : Machine × Context}

theorem Fitted.outcome (h : a.1.Fitted L σ P callers) (tables : σ.tables = L.tables)
    (sound : ∀ site ∈ L.sites, L.Sound site) (next : Next a b) :
    ∃ call, L.Outcome P callers a.1 ⟨.ok call, b.1, b.2⟩ := by
  obtain ⟨call, stepped⟩ := next
  have moves := h.moves tables sound a.2
  rw [Layout.Moves, stepped] at moves
  exact ⟨call, moves⟩

/-- The innermost call stays the same, makes another or goes, and the stacks still fit. -/
theorem Fitted.goes (h : a.1.Fitted L σ P callers) (tables : σ.tables = L.tables)
    (sound : ∀ site ∈ L.sites, L.Sound site) (next : Next a b) :
    (∃ Q, Q.chain = P.chain ∧ b.1.Fitted L σ Q callers) ∨
    (∃ f site span n s, a.1.work.items = .invoke f span n :: s.work ∧
      f.body = .script site.decl ∧ site ∈ L.sites ∧ site.point.chain <:+ P.chain ∧ s.point = P ∧
      b.1.Fitted L σ (site.point.inside L.tables site.decl) (s :: callers)) ∨
    (∃ s others, callers = s :: others ∧ b.1.Fitted L σ s.point others) := by
  obtain ⟨call, outcome⟩ := h.outcome tables sound next
  cases h.setting
  cases outcome with
  | stays chain fitted => exact .inl ⟨_, chain, fitted⟩
  | answers _ _ _ _ fitted => exact .inl ⟨_, rfl, fitted⟩
  | enters calls script known nested here _ _ fitted =>
    exact .inr (.inl ⟨_, _, _, _, _, calls, script, known, nested, here, fitted⟩)
  | leaves waits _ _ _ fitted => exact .inr (.inr ⟨_, _, waits, fitted⟩)

/-- All machines that a script reaches have stacks that fit each other. -/
theorem fitted_of_reaches {p : Program} {library : Library} {refuses : Refusal} {tables : Tables}
    (sound : p.Sound library refuses tables) {maxDepth : Nat} {start : Context}
    (reached : Reaches (initial p tables maxDepth, start) a) :
    ∃ P callers,
      a.1.Fitted (p.layout library refuses tables) ⟨tables, maxDepth⟩ P callers := by
  induction reached with
  | refl => exact ⟨_, _, Program.fitted_initial sound maxDepth⟩
  | tail _ next ih =>
    obtain ⟨P, callers, fitted⟩ := ih
    rcases fitted.goes rfl sound.functions next with ⟨_, _, stays⟩ |
      ⟨_, _, _, _, _, _, _, _, _, _, enters⟩ | ⟨_, _, _, leaves⟩
    · exact ⟨_, _, stays⟩
    · exact ⟨_, _, enters⟩
    · exact ⟨_, _, leaves⟩

end runs

end Machine

theorem Permitted.not_internal {refuses : Refusal} {limit depth : Nat} {W : List Work} {V : List Value} {cause : Cause}
    (h : Permitted refuses limit depth W V cause) (message : String) : cause ≠ .internalError message := by
  rintro rfl
  cases h with
  | fault lies => cases lies

/-- A step fails for a permitted cause with every library that keeps to its types. -/
theorem Machine.permitted_of_reaches {p : Program} {library : Library} {refuses : Refusal}
    {tables : Tables} (sound : p.Sound library refuses tables) (trusted : library.Sound refuses)
    {maxDepth : Nat} {start : Context} {m : Machine} {c : Context}
    (reached : Reaches (initial p tables maxDepth, start) (m, c)) {e : Error}
    (failed : (m.step c).outcome = .error e) :
    Permitted refuses maxDepth m.depth m.work.items m.values e.cause := by
  obtain ⟨P, callers, fitted⟩ := fitted_of_reaches sound reached
  have moves := fitted.moves rfl sound.functions c
  cases stepped : m.step c with
  | mk outcome m' c' =>
    rw [stepped] at failed
    rw [Layout.Moves, stepped] at moves
    cases failed
    cases moves with
    | fails permitted =>
      have limit : m.maxDepth = maxDepth := congrArg Setting.maxDepth fitted.setting
      exact limit ▸ permitted trusted

/-- A step of a checked script fails for the values that an operator meets, for a call beyond the
limit, or because a host function refuses arguments of its types, and for no other reason, whatever
the standard library is given from outside. -/
theorem step_error_permitted (outside : Outside) {source file : String} {p : Program}
    {tables : Tables} (read : Program.ofSource source file = .ok p)
    (accepted : p.analyse (.standard outside) = .ok tables) (maxDepth : Nat) (start : Context)
    {m : Machine} {c : Context}
    (reached : Machine.Reaches (Machine.initial p tables maxDepth, start) (m, c)) {e : Error}
    (failed : (m.step c).outcome = .error e) :
    Permitted (Library.Refuses outside) maxDepth m.depth m.work.items m.values e.cause ∧
      ∀ message, e.cause ≠ .internalError message := by
  have sound := Program.sound_of_analyse read (Library.native_standard outside) accepted
    (Library.Refuses outside)
  have permitted :=
    Machine.permitted_of_reaches sound (Library.sound_standard outside) reached failed
  exact ⟨permitted, permitted.not_internal⟩

/-- The machine after so many items of work of a script, if analysis accepts it. -/
def Program.runTo? (library : Library) (source : String) (maxDepth : Nat) (start : Context)
    (n : Nat) : Option (Machine × Context) :=
  match Program.ofSource source "" with
  | .error _ => none
  | .ok p =>
    match p.analyse library with
    | .error _ => none
    | .ok tables => Machine.advance n (Machine.initial p tables maxDepth, start)

theorem Program.reaches_of_runTo? {library : Library} {source : String} {maxDepth n : Nat}
    {start : Context} {a : Machine × Context}
    (h : Program.runTo? library source maxDepth start n = some a) :
    ∃ p tables, Program.ofSource source "" = .ok p ∧ p.analyse library = .ok tables ∧
      Machine.Reaches (Machine.initial p tables maxDepth, start) a := by
  unfold Program.runTo? at h
  split at h
  · cases h
  · next p read =>
    split at h
    · cases h
    · next tables accepted => exact ⟨p, tables, read, accepted, Machine.reaches_of_advance h⟩

def Machine.failure? (m : Machine) (c : Context) : Option Cause :=
  match (m.step c).outcome with
  | .ok _ => none
  | .error e => some e.cause

theorem Machine.error_of_failure? {m : Machine} {c : Context} {cause : Cause}
    (h : m.failure? c = some cause) : ∃ e, (m.step c).outcome = .error e ∧ e.cause = cause := by
  unfold Machine.failure? at h
  split at h
  · cases h
  · next e failed => exact ⟨e, failed, Option.some.inj h⟩

/-- A script that reads a text as a number, inside a call. -/
def readingSource : String :=
  "function read(t:string):number\x7breturn as_number(t);\x7d
print read(\"x\");"

/-- Two calls deep a text is read that is no number. -/
theorem step_error_permitted_reading :
    ∃ p tables m c e, Program.ofSource readingSource "" = .ok p ∧
      p.analyse (.standard .builtIn) = .ok tables ∧
      Machine.Reaches (Machine.initial p tables 8, Context.initial "" 0) (m, c) ∧
      (m.step c).outcome = .error e ∧
      e.cause = .nativeCallFailed "as_number" "\"x\" is not a number" ∧
      Permitted (Library.Refuses .builtIn) 8 m.depth m.work.items m.values e.cause := by
  have fails : ((Program.runTo? (.standard .builtIn) readingSource 8 (.initial "" 0) 9).bind fun a =>
      a.1.failure? a.2) = some (.nativeCallFailed "as_number" "\"x\" is not a number") := by
    decide +kernel
  obtain ⟨⟨m, c⟩, there, fails⟩ := Option.bind_eq_some_iff.1 fails
  obtain ⟨p, tables, read, accepted, reached⟩ := Program.reaches_of_runTo? there
  obtain ⟨e, failed, cause⟩ := Machine.error_of_failure? fails
  have permitted := step_error_permitted .builtIn read accepted 8 _ reached failed
  exact ⟨p, tables, m, c, e, read, accepted, reached, failed, cause, permitted.1⟩

namespace Machine

/-- A run during which more calls are active than at its beginning. -/
def Inside (a : Machine × Context) : Machine × Context → Prop :=
  Relation.ReflTransGen (fun b c => Next b c ∧ a.1.depth < c.1.depth) a

/-- A run from a call that ends as soon as no more calls are active than at its beginning. -/
def Completes (a b : Machine × Context) : Prop :=
  ∃ c, Inside a c ∧ Next c b ∧ b.1.depth ≤ a.1.depth

/-- The end of a call, if it comes within so many items of work. -/
def complete? (depth : Nat) : Nat → Machine × Context → Option (Machine × Context)
  | 0, _ => none
  | n + 1, a =>
    match a.1.step a.2 with
    | ⟨.ok _, m, c⟩ => if m.depth ≤ depth then some (m, c) else complete? depth n (m, c)
    | ⟨.error _, _, _⟩ => none

theorem completes_of_complete? {n : Nat} {a b : Machine × Context}
    (h : complete? a.1.depth n a = some b) : Completes a b := by
  have ends : ∀ (n : Nat) (c : Machine × Context), Inside a c → complete? a.1.depth n c = some b →
      Completes a b := by
    intro n
    induction n with
    | zero =>
      intro c _ h
      cases h
    | succ n ih =>
      intro c inside h
      unfold complete? at h
      split at h
      · next call m d stepped =>
        split at h
        · next shallow =>
          cases h
          exact ⟨c, inside, ⟨call, stepped⟩, shallow⟩
        · next deep => exact ih (m, d) (inside.tail ⟨⟨call, stepped⟩, Nat.lt_of_not_le deep⟩) h
      · cases h
  exact ends n a .refl h

section completion
variable {L : Layout} {σ : Setting} {P : Point} {callers : List Caller} {a b : Machine × Context}

theorem next_of_invoke {f : Function} {span : Span} {n : Nat} {K : List Work}
    (calls : a.1.work.items = .invoke f span n :: K) (next : Next a b) :
    ∃ call, a.1.step a.2 = ⟨.ok (some call), b.1, b.2⟩ := by
  obtain ⟨call, stepped⟩ := next
  rw [a.1.eq_machine, calls, step_invoke] at stepped ⊢
  split at stepped
  · cases stepped
    exact ⟨_, rfl⟩
  · cases stepped

/-- As long as a call has not ended, the one that made it waits. -/
theorem Fitted.inside {s : Caller} (h : b.1.Fitted L σ P (s :: callers))
    (tables : σ.tables = L.tables) (sound : ∀ site ∈ L.sites, L.Sound site)
    (shallow : a.1.depth = callers.length) {c : Machine × Context}
    (run : Relation.ReflTransGen (fun b c => Next b c ∧ a.1.depth < c.1.depth) b c) :
    ∃ Q others, c.1.Fitted L σ Q others ∧ s :: callers <:+ others := by
  induction run with
  | refl => exact ⟨P, _, h, List.suffix_refl _⟩
  | @tail c d _ next ih =>
    obtain ⟨Q, others, fitted, waits⟩ := ih
    obtain ⟨next, deeper⟩ := next
    rcases fitted.goes tables sound next with ⟨_, _, stays⟩ |
      ⟨_, _, _, _, _, _, _, _, _, _, enters⟩ | ⟨_, others, rfl, leaves⟩
    · exact ⟨_, _, stays, waits⟩
    · exact ⟨_, _, enters, waits.trans (List.suffix_cons _ _)⟩
    · refine ⟨_, _, leaves, ?_⟩
      -- Were this the end of the call itself, no more calls than before it would be active.
      rcases List.suffix_cons_iff.1 waits with here | below
      · cases here
        rw [leaves.depth_eq, shallow] at deeper
        exact absurd deeper (Nat.lt_irrefl _)
      · exact below

theorem Fitted.ends {s : Caller} {others : List Caller} (h : a.1.Fitted L σ P others)
    (tables : σ.tables = L.tables) (sound : ∀ site ∈ L.sites, L.Sound site)
    (waits : s :: callers <:+ others) (next : Next a b) (shallow : b.1.depth ≤ callers.length) :
    ∃ v, b.1.work.items = s.work ∧ b.1.values = v :: s.values ∧ L.Fills v s.result := by
  obtain ⟨call, outcome⟩ := h.outcome tables sound next
  have more := waits.length_le
  rw [List.length_cons] at more
  cases outcome with
  | stays _ fitted =>
    rw [fitted.depth_eq] at shallow
    omega
  | answers _ _ _ _ fitted =>
    rw [fitted.depth_eq] at shallow
    omega
  | enters _ _ _ _ _ _ _ fitted =>
    rw [fitted.depth_eq, List.length_cons] at shallow
    omega
  | leaves same fills work values left =>
    subst same
    rw [left.depth_eq] at shallow
    rcases List.suffix_cons_iff.1 waits with here | below
    · cases here
      exact ⟨_, work, values, fills⟩
    · have fewer := below.length_le
      rw [List.length_cons] at fewer
      omega

/-- A call of a machine that fits ends with the work behind it, and with one value on top of what
was below its arguments. -/
theorem Fitted.completes {f : Function} {span : Span} {n : Nat} {K : List Work}
    (h : a.1.Fitted L σ P callers) (tables : σ.tables = L.tables)
    (sound : ∀ site ∈ L.sites, L.Sound site) (calls : a.1.work.items = .invoke f span n :: K)
    (completes : Completes a b) :
    ∃ v, b.1.work.items = K ∧ b.1.values = v :: a.1.values.drop n ∧ L.Fills v f.returns := by
  obtain ⟨c, inside, last, shallow⟩ := completes
  have depth := h.depth_eq
  have moves := h.moves tables sound a.2
  cases h.setting
  rcases Relation.ReflTransGen.cases_head inside with rfl | ⟨d, ⟨first, deeper⟩, run⟩
  · obtain ⟨call, stepped⟩ := next_of_invoke calls last
    rw [Layout.Moves, stepped] at moves
    cases moves with
    | answers calls' _ fills values _ =>
      cases calls.symm.trans calls'
      exact ⟨_, rfl, values, fills⟩
    | enters _ _ _ _ _ _ _ fitted =>
      rw [fitted.depth_eq, depth] at shallow
      exact absurd shallow (by simp)
  · obtain ⟨call, stepped⟩ := next_of_invoke calls first
    rw [Layout.Moves, stepped] at moves
    cases moves with
    | answers _ _ _ _ fitted =>
      rw [fitted.depth_eq, depth] at deeper
      exact absurd deeper (Nat.lt_irrefl _)
    | enters calls' _ _ _ _ result values fitted =>
      cases calls.symm.trans calls'
      obtain ⟨Q, others, fitted, waits⟩ := fitted.inside tables sound depth run
      rw [depth] at shallow
      rw [← values, ← result]
      exact fitted.ends tables sound waits last shallow

end completion

end Machine

/-- A slot of a variable holds a value of its type, and a call that ends leaves one value of the
declared return type, or `unit` where there is none, whatever the standard library is given from
outside. -/
theorem slots_and_calls_typed (outside : Outside) {source file : String} {p : Program}
    {tables : Tables} (read : Program.ofSource source file = .ok p)
    (accepted : p.analyse (.standard outside) = .ok tables) (maxDepth : Nat) (start : Context)
    {m : Machine} {c : Context}
    (reached : Machine.Reaches (Machine.initial p tables maxDepth, start) (m, c)) :
    (∀ frame ∈ m.frames.items, ∀ x v, (x, v) ∈ frame →
      (∃ d ∈ p.declarations, tables.symbols.get? d.node = some x) ∧
      ∀ d ∈ p.declarations, tables.symbols.get? d.node = some x → v.Inhabits d.type) ∧
    ∀ f span n K, m.work.items = .invoke f span n :: K → ∀ b, Machine.Completes (m, c) b →
      ∃ v, b.1.work.items = K ∧ b.1.values = v :: m.values.drop n ∧
        (∀ type, f.returns = some type → v.Inhabits type ∧ v ≠ .unit) ∧
        (f.returns = none → v = .unit) := by
  have sound := Program.sound_of_analyse read (Library.native_standard outside) accepted
    (Library.Refuses outside)
  have trusted := Library.sound_standard outside
  obtain ⟨P, callers, fitted⟩ := Machine.fitted_of_reaches sound reached
  refine ⟨fun frame mem x v slot => ?_, fun f span n K calls b completes => ?_⟩
  · obtain ⟨d, declared, fills⟩ := fitted.typed.placed.standing.slot mem slot
    refine ⟨⟨d, List.mem_of_getElem? declared, sound.symbols x d declared⟩, fun d' mem' symbol => ?_⟩
    obtain ⟨y, declared'⟩ := List.mem_iff_getElem?.1 mem'
    rw [sound.symbols y d' declared'] at symbol
    cases symbol
    have same := declared.symm.trans declared'
    cases same
    exact fills trusted
  · obtain ⟨v, work, values, fills⟩ := fitted.completes rfl sound.functions calls completes
    have filled := fills trusted
    refine ⟨v, work, values, fun type returns => ?_, fun returns => ?_⟩
    · rw [returns] at filled
      exact ⟨filled, filled.ne_unit⟩
    · rw [returns] at filled
      exact filled

/-- A script with a function that calls itself. -/
def factorialSource : String :=
  "function fact(n:number):number\x7bif n<=1\x7breturn 1;\x7dreturn n*fact(n-1);\x7d
print fact(3);"

/-- Inside a call of a function that calls itself, the slot of its parameter and the inner call. -/
theorem slots_and_calls_typed_factorial :
    ∃ p tables m c b f span n K x w v, Program.ofSource factorialSource "" = .ok p ∧
      p.analyse (.standard .builtIn) = .ok tables ∧
      Machine.Reaches (Machine.initial p tables 8, Context.initial "" 0) (m, c) ∧
      (∃ frame ∈ m.frames.items, (x, w) ∈ frame) ∧
      (∃ d ∈ p.declarations, tables.symbols.get? d.node = some x ∧ w.Inhabits d.type) ∧
      m.work.items = .invoke f span n :: K ∧ f.returns = some .number ∧
      Machine.Completes (m, c) b ∧ b.1.work.items = K ∧
      b.1.values = v :: m.values.drop n ∧ v.Inhabits .number := by
  have runs : ((Program.runTo? (.standard .builtIn) factorialSource 8 (.initial "" 0) 20).any fun a =>
      a.1.work.items.head?.any (fun item => item.callee?.any fun f => f.returns = some .number) &&
      a.1.frames.items.any (fun frame => !frame.isEmpty) &&
      (Machine.complete? a.1.depth 60 a).isSome) = true := by
    decide +kernel
  obtain ⟨⟨m, c⟩, there, holds⟩ := (Option.any_eq_true _ _).1 runs
  obtain ⟨p, tables, read, accepted, reached⟩ := Program.reaches_of_runTo? there
  obtain ⟨slots, calls⟩ := slots_and_calls_typed .builtIn read accepted 8 _ reached
  simp only [Bool.and_eq_true] at holds
  obtain ⟨⟨top, filled⟩, ends⟩ := holds
  obtain ⟨item, first, called⟩ := (Option.any_eq_true _ _).1 top
  obtain ⟨f, callee, returns⟩ := (Option.any_eq_true _ _).1 called
  obtain ⟨span, n, rfl⟩ := Work.eq_invoke_of_callee? callee
  obtain ⟨K, work⟩ := List.head?_eq_some_iff.1 first
  obtain ⟨b, ends⟩ := Option.isSome_iff_exists.1 ends
  have returns : f.returns = some .number := of_decide_eq_true returns
  have completes := @Machine.completes_of_complete? 60 (m, c) b ends
  obtain ⟨v, rest, values, fills, _⟩ := calls f span n K work b completes
  obtain ⟨frame, mem, some_slot⟩ := List.any_eq_true.1 filled
  obtain ⟨⟨x, w⟩, slot⟩ := List.exists_mem_of_ne_nil frame (by simpa using some_slot)
  obtain ⟨⟨d, declared, symbol⟩, inhabits⟩ := slots frame mem x w slot
  exact ⟨p, tables, m, c, b, f, span, n, K, x, w, v, read, accepted, reached, ⟨frame, mem, slot⟩,
    ⟨d, declared, symbol, inhabits d declared symbol⟩, work, returns, completes, rest, values,
    (fills _ returns).1⟩

end CursorScript
