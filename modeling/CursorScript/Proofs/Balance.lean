import CursorScript.Proofs.Effects
import CursorScript.Proofs.Confinement

/-!
Calls, frames and waiting values in balance. The work of a machine is that of its active calls, one
on top of the other, each down to a bottom of its own. Within a call it is known how many values the
work takes, and each call but the innermost waits for one more. So the frames are counted by the
bottoms of calls, `break` and `continue` stay within a call, `return` leaves one, and nothing is left
over at the end. None of this depends on types or on what the tables record, but only on statements
being confined to calls and loops.
-/
namespace CursorScript

def Loop.confined (call : Bool) : Loop → Bool
  | .whileTrue _ _ b => Stmt.allConfined call true b.body
  | .times _ b => Stmt.allConfined call true b.body

namespace Work

/-- Whether an item takes one value, leaves none and may stand in a call and in a loop. -/
def settles (call loop : Bool) : Work → Bool
  | discard _ => true
  | declare .. => true
  | store .. => true
  | branch _ b other => Stmt.allConfined call loop b.body && Stmt.otherConfined call loop other
  | whileTest _ _ b => Stmt.allConfined call true b.body
  | repeatCount _ b => Stmt.allConfined call true b.body
  | leaveCall _ => call
  | _ => false

/-- Work that takes no values, down to the bottom of a call or of the script. -/
inductive Behind (call : Bool) : Bool → List Work → Prop
  | script (outside : call = false) : Behind call false []
  | body (inside : call = true) : Behind call false [.pushUnit, .returnPointer]
  | stmt {loop : Bool} {s : Stmt} {T : List Work} (confined : s.confined call loop = true)
      (rest : Behind call loop T) : Behind call loop (.stmt s :: T)
  | round {outer : Bool} {next : Loop} {T : List Work} (confined : next.confined call = true)
      (rest : Behind call outer T) :
      Behind call true (.continuePointer :: .again next :: .breakPointer :: T)

/-- Work that takes so many values, down to the bottom of a call or of the script. -/
inductive Takes (call : Bool) : Nat → List Work → Prop
  | behind {loop : Bool} {T : List Work} (rest : Behind call loop T) : Takes call 0 T
  | again {loop : Bool} {next : Loop} {T : List Work} (confined : next.confined call = true)
      (rest : Behind call loop T) : Takes call 0 (.again next :: .breakPointer :: T)
  | settle {loop : Bool} {item : Work} {T : List Work} (settles : item.settles call loop = true)
      (rest : Behind call loop T) : Takes call 1 (item :: T)
  | expr {e : Expr} {n : Nat} {T : List Work} (rest : Takes call (n + 1) T) :
      Takes call n (.expr e :: T)
  | join {item : Work} {k n : Nat} {T : List Work} (takes : item.takes? = some k)
      (rest : Takes call (n + 1) T) : Takes call (n + k) (item :: T)
  | bottom (inside : call = true) : Takes call 1 [.returnPointer]

variable {call loop : Bool} {t k : Nat} {item : Work} {T : List Work}

theorem Behind.items {body : List Stmt} (confined : Stmt.allConfined call loop body = true)
    (rest : Behind call loop T) : Behind call loop (body.map .stmt ++ T) := by
  induction body with
  | nil => exact rest
  | cons s body ih =>
    obtain ⟨first, others⟩ := Bool.and_eq_true_iff.1 confined
    exact .stmt first (ih others)

theorem Behind.roundWork {body : Block Stmt} {next : Loop}
    (confined : Stmt.allConfined call true body.body = true) (goes : next.confined call = true)
    (rest : Behind call loop T) : Behind call true (Machine.roundWork body next ++ T) := by
  rw [Machine.roundWork, List.append_assoc]
  exact .items confined (.round goes rest)

theorem Behind.timesWork {body : Block Stmt}
    (confined : Stmt.allConfined call true body.body = true) (rest : Behind call loop T)
    (n : Nat) : ∃ inner, Behind call inner (Machine.timesWork body [] n ++ T) := by
  cases n with
  | zero => exact ⟨loop, rest⟩
  | succ n => exact ⟨true, .roundWork confined confined rest⟩

/-- Inside a loop `break` leads behind it. -/
theorem Behind.below_break (h : Behind call loop T) (inside : loop = true) :
    ∃ outer K, Stack.listBelow isBreakPointer T = some K ∧ Behind call outer K := by
  induction h with
  | script => cases inside
  | body => cases inside
  | stmt _ _ ih => exact ih inside
  | round _ rest => exact ⟨_, _, rfl, rest⟩

/-- Inside a loop `continue` leads to the end of its body. -/
theorem Behind.below_continue (h : Behind call loop T) (inside : loop = true) :
    ∃ outer next K, Stack.listBelow isContinuePointer T = some (.again next :: .breakPointer :: K) ∧
      next.confined call = true ∧ Behind call outer K := by
  induction h with
  | script => cases inside
  | body => cases inside
  | stmt _ _ ih => exact ih inside
  | round goes rest => exact ⟨_, _, _, rfl, goes, rest⟩

/-- Inside a call `return` leads to its bottom. -/
theorem Behind.below_return (h : Behind call loop T) (inside : call = true) :
    Stack.listBelow isReturnPointer T = some [] := by
  induction h with
  | script outside =>
    rw [inside] at outside
    cases outside
  | body => rfl
  | stmt _ _ ih => exact ih
  | round _ _ ih => exact ih

theorem Takes.operands {es : List Expr} {n : Nat} (rest : Takes call (n + es.length) T) :
    Takes call n (Machine.operands es ++ T) := by
  induction es generalizing n with
  | nil => exact rest
  | cons e es ih =>
    refine .expr (ih ?_)
    rwa [List.length_cons, ← Nat.add_assoc, Nat.add_right_comm] at rest

theorem Takes.of_stmt {s : Stmt} (h : Takes call t (.stmt s :: T)) :
    t = 0 ∧ ∃ loop, s.confined call loop = true ∧ Behind call loop T := by
  cases h with
  | behind rest =>
    cases rest with
    | stmt confined rest => exact ⟨rfl, _, confined, rest⟩
  | settle settles => cases settles
  | join takes => cases takes

theorem Takes.of_expr {e : Expr} (h : Takes call t (.expr e :: T)) : Takes call (t + 1) T := by
  cases h with
  | behind rest => cases rest
  | settle settles => cases settles
  | expr rest => exact rest
  | join takes => cases takes

theorem takes?_of_settles (h : item.settles call loop = true) : item.takes? = none := by
  cases item <;> first | rfl | cases h

theorem Into.takes? {items : List Work} (h : item.Into k items) : item.takes? = none := by
  cases h <;> rfl

theorem Takes.of_join (h : Takes call t (item :: T)) (takes : item.takes? = some k) :
    ∃ n, t = n + k ∧ Takes call (n + 1) T := by
  cases h with
  | behind rest => cases rest <;> cases takes
  | again => cases takes
  | settle settles =>
    rw [takes?_of_settles settles] at takes
    cases takes
  | expr => cases takes
  | join takes' rest =>
    cases takes.symm.trans takes'
    exact ⟨_, rfl, rest⟩
  | bottom => cases takes

theorem Takes.of_again {next : Loop} (h : Takes call t (.again next :: T)) :
    t = 0 ∧ next.confined call = true ∧
      ∃ loop rest, T = .breakPointer :: rest ∧ Behind call loop rest := by
  cases h with
  | behind rest => cases rest
  | again confined rest => exact ⟨rfl, confined, _, _, rfl, rest⟩
  | settle settles => cases settles
  | join takes => cases takes

/-- An item that takes its one value and leaves none stands in front of statements. -/
theorem Takes.of_settling {items : List Work} (h : Takes call t (item :: T))
    (one : item.Into 1 items) :
    t = 1 ∧ ∃ loop, item.settles call loop = true ∧ Behind call loop T := by
  cases h with
  | behind rest => cases rest <;> cases one
  | again => cases one
  | settle settles rest => exact ⟨rfl, _, settles, rest⟩
  | expr => cases one
  | join takes =>
    rw [one.takes?] at takes
    cases takes
  | bottom => cases one

theorem Takes.of_leaveCall {p : Position} (h : Takes call t (.leaveCall p :: T)) :
    t = 1 ∧ call = true ∧ ∃ loop, Behind call loop T := by
  cases h with
  | behind rest => cases rest
  | settle settles rest => exact ⟨rfl, settles, _, rest⟩
  | join takes => cases takes

/-- Items in place of another take as many values less as that one took. -/
theorem Takes.unfolds {items : List Work} (h : Takes call t (item :: T)) (into : item.Into k items) :
    ∃ n, t = n + k ∧ Takes call n (items ++ T) := by
  have settled : ∀ {e : Expr} {last : Work} {loop : Bool}, last.settles call loop = true →
      Behind call loop T → Takes call 0 ([.expr e, last] ++ T) := fun settles rest =>
    .expr (.settle settles rest)
  cases into with
  | expr takes =>
    refine ⟨t, rfl, ?_⟩
    rw [List.append_assoc]
    exact .operands (.join takes h.of_expr)
  | block b =>
    obtain ⟨rfl, loop, confined, rest⟩ := h.of_stmt
    exact ⟨0, rfl, .behind (.items confined rest)⟩
  | expression | declaration | assignment =>
    obtain ⟨rfl, loop, _, rest⟩ := h.of_stmt
    exact ⟨0, rfl, settled rfl rest⟩
  | conditional | whileLoop | repeatLoop | «return» =>
    obtain ⟨rfl, loop, confined, rest⟩ := h.of_stmt
    exact ⟨0, rfl, @settled _ _ loop confined rest⟩
  | function decl =>
    obtain ⟨rfl, loop, _, rest⟩ := h.of_stmt
    exact ⟨0, rfl, .behind rest⟩
  | discard p =>
    obtain ⟨rfl, loop, _, rest⟩ := h.of_settling (.discard p)
    exact ⟨0, rfl, .behind rest⟩
  | declare x p =>
    obtain ⟨rfl, loop, _, rest⟩ := h.of_settling (.declare x p)
    exact ⟨0, rfl, .behind rest⟩
  | store x op p =>
    obtain ⟨rfl, loop, _, rest⟩ := h.of_settling (.store x op p)
    exact ⟨0, rfl, .behind rest⟩
  | branch p b other =>
    obtain ⟨rfl, loop, confined, rest⟩ := h.of_settling (.branch p b other)
    obtain ⟨body, _⟩ := Bool.and_eq_true_iff.1 confined
    exact ⟨0, rfl, .behind (.items body rest)⟩
  | otherBranch p b other =>
    obtain ⟨rfl, loop, confined, rest⟩ := h.of_settling (.otherBranch p b other)
    obtain ⟨_, otherwise⟩ := Bool.and_eq_true_iff.1 confined
    cases other with
    | none => exact ⟨0, rfl, .behind rest⟩
    | some s => exact ⟨0, rfl, .behind (.stmt otherwise rest)⟩
  | round mark e b =>
    obtain ⟨rfl, loop, confined, rest⟩ := h.of_settling (.round mark e b)
    exact ⟨0, rfl, .behind (.roundWork confined confined rest)⟩
  | noRound mark e b =>
    obtain ⟨rfl, loop, _, rest⟩ := h.of_settling (.noRound mark e b)
    exact ⟨0, rfl, .behind rest⟩
  | rounds p b n =>
    obtain ⟨rfl, loop, confined, rest⟩ := h.of_settling (.rounds p b n)
    obtain ⟨inner, rest⟩ := rest.timesWork confined n
    exact ⟨0, rfl, .behind rest⟩

/-- A loop that goes on takes no values either. -/
theorem Takes.goesOn {next : Loop} (confined : next.confined call = true)
    (rest : Behind call loop T) : Takes call 0 (next.items ++ T) := by
  cases next with
  | whileTrue mark e b => exact .expr (.settle confined rest)
  | times n b =>
    obtain ⟨inner, rest⟩ := rest.timesWork confined n
    exact .behind rest

/-- What is below the work of a call, or of the script itself: the work of the calls that wait, the
number of their values and that of their frames. Each of them waits for one value more. -/
inductive Under : Bool → List Work → Nat → Nat → Prop
  | script : Under false [] 0 0
  | call {outer : Bool} {T K : List Work} {n k d : Nat} (takes : Takes outer (n + 1) T)
      (below : Under outer K k d) : Under true (T ++ K) (n + k) (d + 1)

/-- Work that is in balance with so many values and so many frames. -/
def Balanced (W : List Work) (values frames : Nat) : Prop :=
  ∃ call T K t k d, W = T ++ K ∧ Takes call t T ∧ Under call K k d ∧ values = t + k ∧
    frames = d + 1

theorem listBelow_append_of_some {isTarget : Work → Bool} {K : List Work}
    (h : Stack.listBelow isTarget T = some K) (rest : List Work) :
    Stack.listBelow isTarget (T ++ rest) = some (K ++ rest) := by
  obtain ⟨dropped, target, rfl, hit, others⟩ := Stack.listBelow_eq_some h
  rw [List.append_assoc, Stack.listBelow_append others]
  simp [Stack.listBelow, hit]

variable {K W : List Work} {d : Nat}

/-- The next item belongs to the innermost call. -/
theorem Balanced.cons {values frames : Nat} (h : Balanced (item :: W) values frames) :
    ∃ call T K t k d, W = T ++ K ∧ Takes call t (item :: T) ∧ Under call K k d ∧ values = t + k ∧
      frames = d + 1 := by
  obtain ⟨call, T, K, t, k, d, split_eq, takes, under, values, frames⟩ := h
  cases T with
  | nil =>
    -- Only the script itself may have no work left, and then there is none below.
    cases takes with
    | behind rest =>
      cases rest with
      | script outside =>
        subst outside
        cases under
        cases split_eq
  | cons first T =>
    obtain ⟨rfl, rfl⟩ := List.cons.inj split_eq
    exact ⟨call, T, K, t, k, d, rfl, takes, under, values, frames⟩

/-- A call whose value is there goes, and the one that made it goes on. -/
theorem Under.leave (h : Under true K k d) : Balanced K (1 + k) d := by
  cases h with
  | @call outer T K n k d takes below =>
    exact ⟨outer, T, K, n + 1, k, d, rfl, takes, below, by omega, rfl⟩

open Machine in
/-- Whatever an item comes to, the work stays in balance. -/
theorem Takes.balanced {σ : Setting} {fs fs' : List Frame} {V V' : List Value} {W' : List Work}
    (h : Takes call t (item :: T)) (under : Under call K k d) (values : V.length = t + k)
    (frames : fs.length = d + 1) (effect : Effect σ fs (T ++ K) V item fs' W' V')
    (known : ∀ f decl span n, item = .invoke f span n → f.body = .script decl →
      Stmt.allConfined true false decl.body.body = true) :
    Balanced W' V'.length fs'.length := by
  cases effect with
  | answers takes enough v =>
    obtain ⟨n, rfl, rest⟩ := h.of_join takes
    refine ⟨call, T, K, n + 1, k, d, rfl, rest, under, ?_, frames⟩
    rw [List.length_cons, List.length_drop]
    omega
  | evaluates e v =>
    refine ⟨call, T, K, t + 1, k, d, rfl, h.of_expr, under, ?_, frames⟩
    rw [List.length_cons]
    omega
  | @unfolds _ j items _ into enough same =>
    obtain ⟨n, rfl, rest⟩ := h.unfolds into
    refine ⟨call, items ++ T, K, n, k, d, by simp, rest, under, ?_, same.trans frames⟩
    rw [List.length_drop]
    omega
  | bareReturn mark p =>
    obtain ⟨rfl, loop, confined, rest⟩ := h.of_stmt
    refine ⟨call, .leaveCall p :: T, K, 1, k, d, rfl, .settle confined rest, under, ?_, frames⟩
    rw [List.length_cons]
    omega
  | breaks mark below =>
    obtain ⟨rfl, loop, confined, rest⟩ := h.of_stmt
    obtain ⟨outer, T', found, rest⟩ := rest.below_break confined
    cases (listBelow_append_of_some found K).symm.trans below
    exact ⟨call, T', K, 0, k, d, rfl, .behind rest, under, values, frames⟩
  | continues mark below =>
    obtain ⟨rfl, loop, confined, rest⟩ := h.of_stmt
    obtain ⟨outer, next, T', found, goes, rest⟩ := rest.below_continue confined
    cases (listBelow_append_of_some found K).symm.trans below
    exact ⟨call, _, K, 0, k, d, rfl, .again goes rest, under, values, frames⟩
  | goesOn next =>
    obtain ⟨rfl, goes, loop, T, rfl, rest⟩ := h.of_again
    refine ⟨call, next.items ++ T, K, 0, k, d, ?_, .goesOn goes rest, under, values, frames⟩
    simp [retired]
  | pushesUnit =>
    cases h with
    | behind rest =>
      cases rest with
      | body inside =>
        refine ⟨call, _, K, 1, k, d, rfl, .bottom inside, under, ?_, frames⟩
        rw [List.length_cons]
        omega
    | settle settles => cases settles
    | join takes => cases takes
  | leaves p below =>
    obtain ⟨rfl, rfl, loop, rest⟩ := h.of_leaveCall
    cases (listBelow_append_of_some (rest.below_return rfl) K).symm.trans below
    rw [List.length_tail, frames, values]
    exact under.leave
  | ends =>
    cases h with
    | behind rest => cases rest
    | settle settles => cases settles
    | join takes => cases takes
    | bottom inside =>
      subst inside
      rw [List.length_tail, frames, values]
      exact under.leave
  | endsRound =>
    cases h with
    | behind rest => cases rest
    | settle settles => cases settles
    | join takes => cases takes
  | endsBody =>
    cases h with
    | behind rest =>
      cases rest with
      | round goes rest => exact ⟨call, _, K, 0, k, d, rfl, .again goes rest, under, values, frames⟩
    | settle settles => cases settles
    | join takes => cases takes
  | @enters f decl span n frame script enough room =>
    obtain ⟨n', rfl, rest⟩ := h.of_join rfl
    have confined := known f decl span n rfl script
    refine ⟨true, itemsOf decl.body ++ [.pushUnit, .returnPointer], T ++ K, 0, n' + k, d + 1,
      by simp, .behind (.items confined (.body rfl)), .call rest under, ?_, ?_⟩
    · rw [List.length_drop]
      omega
    · rw [List.length_cons, frames]

theorem Behind.countP_eq (h : Behind call loop T) :
    T.countP isReturnPointer = call.toNat := by
  induction h with
  | script outside =>
    rw [outside]
    rfl
  | body inside =>
    rw [inside]
    rfl
  | stmt _ _ ih => rwa [List.countP_cons_of_neg (by simp [isReturnPointer])]
  | round _ _ ih => simpa [isReturnPointer] using ih

theorem isReturnPointer_of_takes? (h : item.takes? = some k) : item.isReturnPointer = false := by
  cases item <;> first | rfl | cases h

theorem isReturnPointer_of_settles (h : item.settles call loop = true) :
    item.isReturnPointer = false := by
  cases item <;> first | rfl | cases h

theorem Takes.countP_eq (h : Takes call t T) : T.countP isReturnPointer = call.toNat := by
  induction h with
  | behind rest => exact rest.countP_eq
  | again _ rest => simpa [isReturnPointer] using rest.countP_eq
  | settle settles rest =>
    rw [List.countP_cons_of_neg (by simp [isReturnPointer_of_settles settles])]
    exact rest.countP_eq
  | expr _ ih => rwa [List.countP_cons_of_neg (by simp [isReturnPointer])]
  | join takes _ ih =>
    rwa [List.countP_cons_of_neg (by simp [isReturnPointer_of_takes? takes])]
  | bottom inside =>
    rw [inside]
    rfl

theorem Under.countP_eq (h : Under call K k d) :
    K.countP isReturnPointer + call.toNat = d := by
  induction h with
  | script => rfl
  | call takes _ ih =>
    rw [List.countP_append, takes.countP_eq, Nat.add_comm (Bool.toNat _), ih]
    rfl

/-- There is a frame for each bottom of a call, and one for the script. -/
theorem Balanced.frames_eq {values frames : Nat} (h : Balanced W values frames) :
    frames = W.countP isReturnPointer + 1 := by
  obtain ⟨call, T, K, t, k, d, rfl, takes, under, _, rfl⟩ := h
  rw [List.countP_append, takes.countP_eq, ← under.countP_eq, Nat.add_comm call.toNat]

/-- Where no work is left, no values wait and there is only the frame of the script. -/
theorem Balanced.eq_of_nil {values frames : Nat} (h : Balanced [] values frames) :
    values = 0 ∧ frames = 1 := by
  obtain ⟨call, T, K, t, k, d, empty, takes, under, rfl, rfl⟩ := h
  obtain ⟨rfl, rfl⟩ := List.append_eq_nil_iff.1 empty.symm
  cases takes with
  | behind rest =>
    cases rest with
    | script outside =>
      subst outside
      cases under
      exact ⟨rfl, rfl⟩

end Work

namespace Machine
open Work

/-- A machine whose stacks are in balance, with no more active calls than it may have. -/
structure InBalance (limit : Nat) (m : Machine) : Prop where
  bounded : m.maxDepth = limit
  shallow : m.depth ≤ limit
  balanced : Balanced m.work.items m.values.length m.frames.items.length

theorem Effect.length_le {σ : Setting} {fs fs' : List Frame} {W W' : List Work}
    {V V' : List Value} {item : Work} (h : Effect σ fs W V item fs' W' V')
    (shallow : fs.length - 1 ≤ σ.maxDepth) : fs'.length - 1 ≤ σ.maxDepth := by
  cases h with
  | unfolds _ _ same => rwa [same]
  | leaves => rw [List.length_tail]; omega
  | ends => rw [List.length_tail]; omega
  | enters frame _ _ room => rw [List.length_cons]; omega
  | _ => exact shallow

/-- A step keeps the balance, as long as the functions that it may call are confined. -/
theorem InBalance.next {limit : Nat} {root : Node} {a b : Machine × Context}
    (h : a.1.InBalance limit) (rooted : a.1.Rooted root) (confined : root.Confined)
    (next : Next a b) : b.1.InBalance limit := by
  rcases effect_of_next next with ⟨_, same⟩ | ⟨item, W, work, fs', W', V', same, effect⟩
  · rw [same]
    exact h
  obtain ⟨bounded, shallow, balanced⟩ := h
  rw [depth, a.1.frames.size_eq, ← bounded] at shallow
  have shallow' := effect.length_le shallow
  rw [same]
  refine ⟨bounded, bounded ▸ shallow', ?_⟩
  rw [work] at balanced
  obtain ⟨call, T, K, t, k, d, rfl, takes, under, values, frames⟩ := balanced.cons
  refine takes.balanced under values frames effect fun f decl span n calls script => ?_
  have mem : Work.invoke f span n ∈ a.1.work.items := by simp [work, calls]
  exact confined.body ((rooted.work _ mem).2 decl script)

theorem inBalance_initial {p : Program} (confined : Stmt.allConfined false false p.body = true)
    (tables : Tables) (maxDepth : Nat) : (initial p tables maxDepth).InBalance maxDepth := by
  refine ⟨rfl, Nat.zero_le _, false, itemsOf p, [], 0, 0, 0, by simp [initial], ?_, .script, rfl, rfl⟩
  have items := Behind.items confined (.script rfl)
  rw [List.append_nil] at items
  exact .behind items

theorem inBalance_of_reaches {tokens : List Token} {file : String} {p : Program}
    {library : Library} {tables : Tables} (read : Program.ofTokens tokens file = .ok p)
    (native : library.Native) (accepted : p.analyse library = .ok tables) {maxDepth : Nat}
    {start : Context} {a : Machine × Context}
    (reached : Reaches (initial p tables maxDepth, start) a) : a.1.InBalance maxDepth := by
  have confined := Program.confined_of_analyse accepted
  obtain ⟨_, _, known⟩ := (Program.written_of_analyse read library).2 tables accepted
  have root : (Node.block p).Confined := ⟨false, false, confined⟩
  induction reached with
  | refl => exact inBalance_initial confined tables maxDepth
  | tail run next ih =>
    have rooted := rooted_of_reaches (rooted_initial known native maxDepth) run
    exact ih.next rooted root next

/-- The next item drops the work above a pointer and the pointer itself. No bottom of a call is
above the pointer, and no value is lost. -/
def UnwindsTo (pointer : Work) (m : Machine) (c : Context) (W : List Work)
    (frames : List Frame) : Prop :=
  ∃ dropped K m', W = dropped ++ pointer :: K ∧
    (∀ item ∈ dropped, item.isReturnPointer = false) ∧ m.step c = ⟨.ok none, m', c⟩ ∧
    m'.work.items = K ∧ m'.frames.items = frames ∧ m'.values = m.values

section unwinding
variable {limit : Nat} {m : Machine} {c : Context} {W : List Work}

theorem InBalance.cons {item : Work} (h : m.InBalance limit) (work : m.work.items = item :: W) :
    ∃ call T K t k, W = T ++ K ∧ Takes call t (item :: T) ∧ m.values.length = t + k := by
  have balanced := h.balanced
  rw [work] at balanced
  obtain ⟨call, T, K, t, k, _, split_eq, takes, _, values, _⟩ := balanced.cons
  exact ⟨call, T, K, t, k, split_eq, takes, values⟩

theorem unwindsTo_of_below {item pointer : Work} {isTarget : Work → Bool} {T K below : List Work}
    {frames : List Frame} (work : m.work.items = item :: (T ++ below)) (quiet : item.isInvoke = false)
    (isPointer : ∀ other, isTarget other = true → other = pointer)
    (found : Stack.listBelow isTarget T = some K)
    (counts : T.countP isReturnPointer = (pointer :: K).countP isReturnPointer)
    (performs : Stack.listBelow isTarget (T ++ below) = some (K ++ below) →
      (perform item).run (m.setting.machine m.frames.items (T ++ below) m.values) =
        .ok () (m.setting.machine frames (K ++ below) m.values)) :
    UnwindsTo pointer m c (T ++ below) frames := by
  have performed := performs (listBelow_append_of_some found below)
  obtain ⟨dropped, target, rfl, hit, _⟩ := Stack.listBelow_eq_some found
  cases isPointer target hit
  refine ⟨dropped, K ++ below, m.setting.machine frames (K ++ below) m.values, by simp, ?_, ?_, rfl,
    rfl, rfl⟩
  · rw [List.countP_append] at counts
    have none_dropped : dropped.countP isReturnPointer = 0 := by omega
    exact fun other mem => by simpa using List.countP_eq_zero.1 none_dropped other mem
  · rw [m.eq_machine, work, step_item quiet, performed]
    rfl

theorem InBalance.breaks {mark : Mark} (h : m.InBalance limit)
    (work : m.work.items = .stmt (.brk mark) :: W) :
    UnwindsTo .breakPointer m c W m.frames.items := by
  obtain ⟨call, T, below, t, k, rfl, takes, _⟩ := h.cons work
  obtain ⟨_, loop, inside, rest⟩ := takes.of_stmt
  obtain ⟨outer, K, found, behind⟩ := rest.below_break inside
  refine unwindsTo_of_below work rfl (fun other hit => ?_) found ?_ fun below => ?_
  · cases other <;> first | rfl | cases hit
  · exact rest.countP_eq.trans behind.countP_eq.symm
  · exact perform_break below mark

theorem InBalance.continues {mark : Mark} (h : m.InBalance limit)
    (work : m.work.items = .stmt (.cont mark) :: W) :
    UnwindsTo .continuePointer m c W m.frames.items := by
  obtain ⟨call, T, below, t, k, rfl, takes, _⟩ := h.cons work
  obtain ⟨_, loop, inside, rest⟩ := takes.of_stmt
  obtain ⟨outer, next, K, found, _, behind⟩ := rest.below_continue inside
  refine unwindsTo_of_below work rfl (fun other hit => ?_) found ?_ fun below => ?_
  · cases other <;> first | rfl | cases hit
  · exact rest.countP_eq.trans behind.countP_eq.symm
  · exact perform_continue below mark

theorem InBalance.leaves {p : Position} (h : m.InBalance limit)
    (work : m.work.items = .leaveCall p :: W) :
    UnwindsTo .returnPointer m c W m.frames.items.tail := by
  obtain ⟨call, T, below, t, k, rfl, takes, _⟩ := h.cons work
  obtain ⟨_, inside, loop, rest⟩ := takes.of_leaveCall
  refine unwindsTo_of_below work rfl (fun other hit => ?_) (rest.below_return inside) ?_ fun below => ?_
  · cases other <;> first | rfl | cases hit
  · rw [rest.countP_eq, inside]
    rfl
  · exact perform_leaveCall below p

/-- A call of a function of the script beyond the limit fails. -/
theorem InBalance.refuses {f : Function} {decl : FunctionDecl Stmt} {span : Span} {n : Nat}
    (h : m.InBalance limit) (work : m.work.items = .invoke f span n :: W)
    (script : f.body = .script decl) (full : m.depth = limit) :
    (m.step c).outcome = .error ⟨.recursionLimit limit, span.start⟩ := by
  obtain ⟨call, T, below, t, k, rfl, takes, values⟩ := h.cons work
  obtain ⟨rest, rfl, _⟩ := takes.of_join rfl
  have enough : n ≤ m.values.length := by omega
  have count : (m.values.take n).reverse.length = n := by simp [enough]
  have deep : m.setting.maxDepth ≤ m.frames.items.length - 1 := by
    rw [depth, m.frames.size_eq] at full
    rw [full]
    exact Nat.le_of_eq h.bounded
  have stepped := @step_script_deep m.setting m.frames.items (T ++ below) (m.values.drop n) c f
    decl n _ script count deep span
  rw [List.reverse_reverse, List.take_append_drop] at stepped
  have bounded : m.setting.maxDepth = limit := h.bounded
  rw [m.eq_machine, work, stepped, bounded]

end unwinding

end Machine

/-- Calls, frames and values are in balance in every machine that a checked script reaches, whatever
functions its host provides. There is a frame for the script and one for each bottom of a call in
the work; no more calls are active than may be, and one more is refused; `break` and `continue` drop
no bottom of a call, and `return` drops one; and when no work is left no value waits and only the
frame of the script is there. -/
theorem calls_in_balance {tokens : List Token} {file : String} {p : Program} {library : Library}
    {tables : Tables} (read : Program.ofTokens tokens file = .ok p) (native : library.Native)
    (accepted : p.analyse library = .ok tables) (maxDepth : Nat) (start : Context) {m : Machine}
    {c : Context}
    (reached : Machine.Reaches (Machine.initial p tables maxDepth, start) (m, c)) :
    m.frames.items.length = m.work.items.countP Work.isReturnPointer + 1 ∧
    m.depth ≤ maxDepth ∧
    (∀ f decl span n W, m.work.items = .invoke f span n :: W → f.body = .script decl →
      m.depth = maxDepth →
      (m.step c).outcome = .error ⟨.recursionLimit maxDepth, span.start⟩) ∧
    (∀ mark W, m.work.items = .stmt (.brk mark) :: W →
      m.UnwindsTo .breakPointer c W m.frames.items) ∧
    (∀ mark W, m.work.items = .stmt (.cont mark) :: W →
      m.UnwindsTo .continuePointer c W m.frames.items) ∧
    (∀ q W, m.work.items = .leaveCall q :: W →
      m.UnwindsTo .returnPointer c W m.frames.items.tail) ∧
    (m.isFinished = true → m.values = [] ∧ m.frames.items.length = 1) := by
  have even := Machine.inBalance_of_reaches read native accepted reached
  refine ⟨even.balanced.frames_eq, even.shallow, fun f decl span n W work script full => ?_,
    fun mark W work => even.breaks work, fun mark W work => even.continues work,
    fun q W work => even.leaves work, fun finished => ?_⟩
  · exact even.refuses work script full
  · have balanced := even.balanced
    rw [List.isEmpty_iff.1 finished] at balanced
    obtain ⟨values, frames⟩ := balanced.eq_of_nil
    exact ⟨List.length_eq_zero_iff.1 values, frames⟩

namespace Work

def isBreak : Work → Bool
  | stmt (.brk _) => true
  | _ => false

theorem eq_brk_of_isBreak {item : Work} (h : item.isBreak = true) :
    ∃ mark, item = stmt (.brk mark) := by
  unfold isBreak at h
  split at h
  · exact ⟨_, rfl⟩
  · cases h

end Work

theorem Function.exists_decl {f : Function} (h : (!f.isNative) = true) :
    ∃ decl, f.body = .script decl := by
  unfold isNative at h
  split at h
  · cases h
  · next decl script => exact ⟨decl, script⟩

/-- A script with a function that leaves a loop and then calls itself. -/
def recursingSource : String :=
  "function f(n:number):number\x7brepeat 3\x7bif n>0\x7bbreak;\x7d\x7dreturn f(n);\x7d
print f(1);"

/-- Inside a call a loop is left, and with one call allowed the next one is refused. -/
theorem calls_in_balance_recursing :
    ∃ tokens p tables, Token.tokenize recursingSource "" = .ok tokens ∧
      Program.ofTokens tokens "" = .ok p ∧ p.analyse (.standard .builtIn) = .ok tables ∧
      (∃ m c mark W,
        Machine.Reaches (Machine.initial p tables 1, Context.initial "" 0) (m, c) ∧
        m.work.items = .stmt (.brk mark) :: W ∧ m.depth = 1 ∧
        m.frames.items.length = m.work.items.countP Work.isReturnPointer + 1 ∧
        m.UnwindsTo .breakPointer c W m.frames.items) ∧
      ∃ m c f span n W,
        Machine.Reaches (Machine.initial p tables 1, Context.initial "" 0) (m, c) ∧
        m.work.items = .invoke f span n :: W ∧ f.isNative = false ∧
        (m.step c).outcome = .error ⟨.recursionLimit 1, span.start⟩ := by
  have runs : ((Program.runTo? (.standard .builtIn) recursingSource 1 (.initial "" 0) 15).any fun a =>
      a.1.depth = 1 && a.1.work.items.head?.any Work.isBreak &&
      (Machine.advance 4 a).any fun b => b.1.depth = 1 &&
        b.1.work.items.head?.any fun item => item.callee?.any fun f => !f.isNative) = true := by
    decide +kernel
  obtain ⟨⟨m, c⟩, there, holds⟩ := (Option.any_eq_true _ _).1 runs
  simp only [Bool.and_eq_true, decide_eq_true_eq] at holds
  obtain ⟨⟨deep, breaks⟩, holds⟩ := holds
  obtain ⟨⟨m', c'⟩, further, holds⟩ := (Option.any_eq_true _ _).1 holds
  simp only [Bool.and_eq_true, decide_eq_true_eq] at holds
  obtain ⟨full, calls⟩ := holds
  obtain ⟨item, first, breaks⟩ := (Option.any_eq_true _ _).1 breaks
  obtain ⟨mark, rfl⟩ := Work.eq_brk_of_isBreak breaks
  obtain ⟨W, work⟩ := List.head?_eq_some_iff.1 first
  obtain ⟨item', first', calls⟩ := (Option.any_eq_true _ _).1 calls
  obtain ⟨f, callee, script⟩ := (Option.any_eq_true _ _).1 calls
  obtain ⟨span, n, rfl⟩ := Work.eq_invoke_of_callee? callee
  obtain ⟨W', work'⟩ := List.head?_eq_some_iff.1 first'
  obtain ⟨decl, body⟩ := Function.exists_decl script
  obtain ⟨p, tables, read, accepted, reached⟩ := Program.reaches_of_runTo? there
  obtain ⟨tokens, cut, parsed⟩ := Program.exists_tokens read
  have reached' := reached.trans (Machine.reaches_of_advance further)
  obtain ⟨frames, _, _, unwinds, _⟩ :=
    calls_in_balance parsed (Library.native_standard .builtIn) accepted 1 _ reached
  obtain ⟨_, _, refused, _⟩ :=
    calls_in_balance parsed (Library.native_standard .builtIn) accepted 1 _ reached'
  exact ⟨tokens, p, tables, cut, parsed, accepted,
    ⟨m, c, mark, W, reached, work, deep, frames, unwinds mark W work⟩,
    ⟨m', c', f, span, n, W', reached', work', by simpa using script,
      refused f decl span n W' work' body full⟩⟩

end CursorScript
