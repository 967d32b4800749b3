import CursorScript.Proofs.Recording
import Mathlib.Data.List.Forall2
import Mathlib.Data.List.Perm.Basic
import Mathlib.Data.List.Sort
import Mathlib.Tactic.MkIffOfInductiveProp

/-!
The types of collection literals. Types are ordered by which of them accept which, and the type that
analysis gathers from the elements of a literal is the least that accepts them all. What analysis
finds for an expression depends on the scopes alone, as long as its nodes are new to the tables, so
the order of the elements does not matter.
-/
namespace CursorScript

namespace Ty

/-- A type accepts itself, and a literal type those with fewer members. -/
theorem accepts_iff {t u : Ty} : t.accepts u = true ↔ t = u ∨
    ∃ allowed given : NameSet, t = literal allowed ∧ u = literal given ∧
      given.subset allowed = true := by
  constructor
  · intro h
    unfold accepts at h
    split at h
    · next allowed given => exact .inr ⟨allowed, given, rfl, rfl, h⟩
    · exact .inl (of_decide_eq_true h)
  · rintro (rfl | ⟨allowed, given, rfl, rfl, h⟩)
    · exact accepts_self t
    · exact h

theorem accepts_antisymm {t u : Ty} (h : t.accepts u = true) (h' : u.accepts t = true) : t = u := by
  rcases accepts_iff.1 h with same | ⟨allowed, given, rfl, rfl, sub⟩
  · exact same
  · refine congrArg literal (NameSet.eq_of_mem fun name => ?_)
    exact ⟨NameSet.subset_iff.1 (h' : allowed.subset given = true) name,
      NameSet.subset_iff.1 sub name⟩

@[mk_iff]
structure LeastCommon (ts : List Ty) (t : Ty) : Prop where
  accepts : ∀ u ∈ ts, t.accepts u = true
  least : ∀ u : Ty, (∀ v ∈ ts, u.accepts v = true) → u.accepts t = true

/-- None of some types is the one of an empty collection, and there is a type that accepts them
all. -/
def Compatible (ts : List Ty) : Prop :=
  (∀ t ∈ ts, t.isPseudo = false) ∧ ∃ t : Ty, ∀ u ∈ ts, t.accepts u = true

variable {ts us : List Ty} {t u next : Ty}

theorem LeastCommon.unique (h : LeastCommon ts t) (h' : LeastCommon ts u) : t = u :=
  accepts_antisymm (h'.least t h.accepts) (h.least u h'.accepts)

theorem LeastCommon.perm_iff (same : ts.Perm us) : LeastCommon ts t ↔ LeastCommon us t := by
  simp only [leastCommon_iff, same.mem_iff]

theorem Compatible.perm_iff (same : ts.Perm us) : Compatible ts ↔ Compatible us := by
  simp only [Compatible, same.mem_iff]

theorem Compatible.upto (h : Compatible (ts ++ next :: us)) : Compatible (ts ++ [next]) := by
  obtain ⟨plain, t, all⟩ := h
  rw [← List.singleton_append, ← List.append_assoc] at plain all
  exact ⟨fun v mem => plain v (List.mem_append_left _ mem), t, fun v mem =>
    all v (List.mem_append_left _ mem)⟩

theorem leastCommon_singleton (t : Ty) : LeastCommon [t] t :=
  ⟨by simp, fun u all => all t List.mem_cons_self⟩

/-- One more literal type. -/
theorem LeastCommon.union {members more : NameSet} (h : LeastCommon ts (literal members)) :
    LeastCommon (ts ++ [literal more]) (literal (members.union more)) := by
  have first : (literal (members.union more)).accepts (literal members) = true :=
    NameSet.subset_iff.2 fun name mem => NameSet.mem_union.2 (.inl mem)
  have second : (literal (members.union more)).accepts (literal more) = true :=
    NameSet.subset_iff.2 fun name mem => NameSet.mem_union.2 (.inr mem)
  refine ⟨fun u mem => ?_, fun u all => ?_⟩
  · rcases List.mem_append.1 mem with old | new
    · exact accepts_trans first (h.accepts u old)
    · rw [List.mem_singleton.1 new]
      exact second
  · have old := h.least u fun v mem => all v (List.mem_append_left _ mem)
    have new := all (literal more) (by simp)
    obtain ⟨allowed, rfl⟩ : ∃ allowed, u = literal allowed := by
      rcases accepts_iff.1 old with same | ⟨allowed, _, same, _⟩
      · exact ⟨members, same⟩
      · exact ⟨allowed, same⟩
    refine NameSet.subset_iff.2 fun name mem => ?_
    exact (NameSet.mem_union.1 mem).elim (NameSet.subset_iff.1 old name)
      (NameSet.subset_iff.1 new name)

theorem LeastCommon.again (h : LeastCommon ts t) : LeastCommon (ts ++ [t]) t := by
  refine ⟨fun u mem => ?_, fun u all => all t (by simp)⟩
  rcases List.mem_append.1 mem with old | new
  · exact h.accepts u old
  · rw [List.mem_singleton.1 new]
    exact accepts_self t

/-- Two types that some type accepts are equal or both literal. -/
theorem eq_or_literal (h : t.accepts u = true) (h' : t.accepts next = true) :
    u = next ∨ ∃ members more, u = literal members ∧ next = literal more := by
  rcases accepts_iff.1 h with rfl | ⟨_, members, rfl, rfl, _⟩
  · rcases accepts_iff.1 h' with same | ⟨members, more, first, second, _⟩
    · exact .inl same
    · exact .inr ⟨members, more, first, second⟩
  · rcases accepts_iff.1 h' with rfl | ⟨_, more, _, rfl, _⟩
    · exact .inr ⟨members, _, rfl, rfl⟩
    · exact .inr ⟨members, more, rfl, rfl⟩

end Ty

namespace Typing
open Grammar (run_bind_ok)
open Ty (LeastCommon Compatible)

def Joined (ts : List Ty) : Option Ty → Prop
  | none => ts = []
  | some t => LeastCommon ts t

/-- One more type is joined, or it does not go with those before it. -/
theorem commonType_cases {ts : List Ty} {current : Option Ty} (joined : Joined ts current)
    (next : Ty) (e : Expr) (s : State) :
    (∃ t, (commonType current next e).run s = .ok (t, s) ∧ next.isPseudo = false ∧
      LeastCommon (ts ++ [next]) t) ∨
    (∃ error, (commonType current next e).run s = .error error) ∧ ¬ Compatible (ts ++ [next]) := by
  unfold commonType refuseEmpty
  cases empty : next.isPseudo with
  | true =>
    refine .inr ⟨⟨_, rfl⟩, fun both => ?_⟩
    have plain := both.1 next (by simp)
    rw [empty] at plain
    cases plain
  | false =>
    simp only [Bool.false_eq_true, if_false, pure_bind]
    split
    · cases (joined : ts = [])
      exact .inl ⟨next, rfl, trivial, Ty.leastCommon_singleton next⟩
    · exact .inl ⟨_, rfl, trivial, LeastCommon.union joined⟩
    · next _ old apart =>
      split
      · next same =>
        subst same
        exact .inl ⟨old, rfl, trivial, LeastCommon.again joined⟩
      · next differ =>
        -- A type that accepts two different ones is literal, and then so are they.
        refine .inr ⟨⟨_, rfl⟩, fun both => ?_⟩
        obtain ⟨t, all⟩ := both.2
        have before : t.accepts old = true :=
          LeastCommon.least joined t fun v mem => all v (List.mem_append_left _ mem)
        rcases Ty.eq_or_literal before (all next (by simp)) with same | ⟨members, more, rfl, rfl⟩
        · exact differ same
        · exact apart members more rfl rfl

/-- The types of expressions are found one after the other. -/
inductive InTurn : List Expr → State → List Ty → State → Prop
  | nil (s : State) : InTurn [] s [] s
  | cons {e : Expr} {es : List Expr} {s t u : State} {type : Ty} {types : List Ty}
      (ran : (expr e).run s = .ok (type, t)) (others : InTurn es t types u) :
      InTurn (e :: es) s (type :: types) u

/-- What comes of the types `ts` of elements that follow others. -/
def Outcome (before ts : List Ty) (result : Option Ty) : Prop :=
  Joined (before ++ ts) result ∧ ∀ u ∈ ts, u.isPseudo = false

theorem Outcome.cons {before ts : List Ty} {next : Ty} {result : Option Ty}
    (plain : next.isPseudo = false) (h : Outcome (before ++ [next]) ts result) :
    Outcome before (next :: ts) result := by
  obtain ⟨joined, others⟩ := h
  rw [List.append_assoc] at joined
  exact ⟨joined, List.forall_mem_cons.2 ⟨plain, others⟩⟩

theorem run_bind_of_ok {α β : Type} {first : Check α} {next : α → Check β} {s t : State} {a : α}
    (h : first.run s = .ok (a, t)) : (first >>= next).run s = (next a).run t := by
  rw [StateT.run_bind, h]
  rfl

theorem run_bind_of_error {α β : Type} {first : Check α} {next : α → Check β} {s : State}
    {e : Error} (h : first.run s = .error e) : (first >>= next).run s = .error e := by
  rw [StateT.run_bind, h]
  rfl

/-- The types of all elements are joined, or they do not go together. -/
theorem elementType_cases {es : List Expr} {s t : State} {ts : List Ty} (found : InTurn es s ts t)
    {before : List Ty} {current : Option Ty} (joined : Joined before current) :
    (∃ result, (elementType current es).run s = .ok (result, t) ∧ Outcome before ts result) ∨
    (∃ error, (elementType current es).run s = .error error) ∧ ¬ Compatible (before ++ ts) := by
  induction found generalizing before current with
  | nil s =>
    refine .inl ⟨current, rfl, ?_, nofun⟩
    rwa [List.append_nil]
  | @cons e es s t u next ts ran _ ih =>
    rw [elementType, run_bind_of_ok ran]
    rcases commonType_cases joined next e t with
      ⟨type, common, plain, least⟩ | ⟨⟨_, failed⟩, apart⟩
    · rw [run_bind_of_ok common]
      rcases ih (show Joined _ (some type) from least) with
        ⟨result, done, outcome⟩ | ⟨failed, apart⟩
      · exact .inl ⟨result, done, outcome.cons plain⟩
      · rw [List.append_assoc] at apart
        exact .inr ⟨failed, apart⟩
    · exact .inr ⟨⟨_, run_bind_of_error failed⟩, fun all => apart all.upto⟩

/-- The types of keys and values in the order in which they are found. -/
def operandTypes (pairs : List (Ty × Ty)) : List Ty :=
  pairs.flatMap fun (key, value) => [key, value]

/-- The types of all entries are joined, or those of the keys or of the values do not go
together. -/
theorem entryTypes_cases {t : State} : ∀ (entries : List (Expr × Expr)) (pairs : List (Ty × Ty))
    {s : State}, InTurn (Machine.entryOperands entries) s (operandTypes pairs) t →
    ∀ {before before' : List Ty} {key value : Option Ty}, Joined before key →
      Joined before' value →
    (∃ first second, (entryTypes key value entries).run s = .ok ((first, second), t) ∧
      Outcome before (pairs.map Prod.fst) first ∧ Outcome before' (pairs.map Prod.snd) second) ∨
    (∃ error, (entryTypes key value entries).run s = .error error) ∧
      ¬ (Compatible (before ++ pairs.map Prod.fst) ∧ Compatible (before' ++ pairs.map Prod.snd))
  | [], [], _, .nil _, before, before', key, value, keys, values => by
    refine .inl ⟨key, value, rfl, ⟨?_, nofun⟩, ?_, nofun⟩
    · rwa [List.map_nil, List.append_nil]
    · rwa [List.map_nil, List.append_nil]
  | (k, v) :: rest, (T, U) :: pairs, s, .cons ran (.cons ran' others), before, before', key, value,
      keys, values => by
    rw [entryTypes, run_bind_of_ok ran]
    rcases commonType_cases keys T k _ with ⟨first, common, plain, least⟩ | ⟨⟨_, failed⟩, apart⟩
    swap
    · exact .inr ⟨⟨_, run_bind_of_error failed⟩, fun all => apart all.1.upto⟩
    rw [run_bind_of_ok common, run_bind_of_ok ran']
    rcases commonType_cases values U v _ with
      ⟨second, common, plain', least'⟩ | ⟨⟨_, failed⟩, apart⟩
    swap
    · exact .inr ⟨⟨_, run_bind_of_error failed⟩, fun all => apart all.2.upto⟩
    rw [run_bind_of_ok common]
    rcases entryTypes_cases rest pairs others (show Joined _ (some first) from least)
      (show Joined _ (some second) from least') with
      ⟨T', U', done, outcome, outcome'⟩ | ⟨failed, apart⟩
    · exact .inl ⟨T', U', done, outcome.cons plain, outcome'.cons plain'⟩
    · rw [List.append_assoc, List.append_assoc] at apart
      exact .inr ⟨failed, apart⟩

/-- Keys that are new to the tables, and different from each other. -/
def State.Fresh (s : State) (keys : List Key) : Prop :=
  keys.Nodup ∧ ∀ key ∈ keys, ¬ s.tables.Has key

/-- A state in which `keys` are entered and names mean what they meant before. -/
structure State.Enters (s t : State) (keys : List Key) : Prop where
  scopes : t.scopes = s.scopes
  has : ∀ key, t.tables.Has key ↔ s.tables.Has key ∨ key ∈ keys

/-- A step of analysis that needs `keys` to be new and enters them. Its result depends on the scopes
alone. -/
def Steady {α : Type} (keys : List Key) (check : Check α) : Prop :=
  ∀ s a t, check.run s = .ok (a, t) → s.Fresh keys ∧ s.Enters t keys ∧
    ∀ s' : State, s'.scopes = s.scopes → s'.Fresh keys → ∃ t', check.run s' = .ok (a, t')

section rules
variable {α β : Type} {keys more : List Key} {check : Check α} {next : α → Check β} {s t u : State}

theorem State.Fresh.perm (h : s.Fresh keys) (same : keys.Perm more) : s.Fresh more :=
  ⟨same.nodup_iff.1 h.1, fun key mem => h.2 key (same.mem_iff.2 mem)⟩

theorem State.Fresh.sublist (h : s.Fresh keys) (sub : more.Sublist keys) : s.Fresh more :=
  ⟨h.1.sublist sub, fun key mem => h.2 key (sub.subset mem)⟩

/-- What is new at first and stays different is new later. -/
theorem State.Enters.fresh_append (h : s.Enters t keys) :
    s.Fresh (keys ++ more) ↔ s.Fresh keys ∧ t.Fresh more := by
  constructor
  · rintro ⟨nodup, new⟩
    obtain ⟨first, second, apart⟩ := List.nodup_append.1 nodup
    refine ⟨⟨first, fun key mem => new key (List.mem_append_left _ mem)⟩, second, ?_⟩
    intro key mem had
    rcases (h.has key).1 had with old | here
    · exact new key (List.mem_append_right _ mem) old
    · exact apart key here key mem rfl
  · rintro ⟨⟨first, new⟩, second, later⟩
    refine ⟨List.nodup_append.2 ⟨first, second, ?_⟩, fun key mem => ?_⟩
    · rintro key mem _ mem' rfl
      exact later key mem' ((h.has key).2 (.inr mem))
    · rcases List.mem_append.1 mem with early | late
      · exact new key early
      · exact fun had => later key late ((h.has key).2 (.inl had))

theorem State.Enters.trans (h : s.Enters t keys) (rest : t.Enters u more) :
    s.Enters u (keys ++ more) :=
  ⟨rest.scopes.trans h.scopes, fun key => by rw [rest.has, h.has, List.mem_append, or_assoc]⟩

theorem Steady.bind (h : Steady keys check) (rest : ∀ a, Steady more (next a)) :
    Steady (keys ++ more) (check >>= next) := by
  intro s b u ran
  obtain ⟨a, t, first, second⟩ := run_bind_ok ran
  obtain ⟨fresh, enters, again⟩ := h s a t first
  obtain ⟨fresh', enters', again'⟩ := rest a t b u second
  refine ⟨enters.fresh_append.2 ⟨fresh, fresh'⟩, enters.trans enters', fun s' same new => ?_⟩
  obtain ⟨t', first'⟩ := again s' same (new.sublist (List.sublist_append_left _ _))
  have entered := (h s' a t' first').2.1
  obtain ⟨u', second'⟩ := again' t' ((entered.scopes.trans same).trans enters.scopes.symm)
    (entered.fresh_append.1 new).2
  exact ⟨u', by rw [run_bind_of_ok first', second']⟩

theorem Steady.pure (a : α) : Steady [] (pure a : Check α) := by
  rintro s b t ⟨⟩
  exact ⟨⟨.nil, nofun⟩, ⟨rfl, by simp⟩, fun s' _ _ => ⟨s', rfl⟩⟩

theorem Steady.fail {cause : Cause} {p : Position} :
    Steady keys (Typing.fail cause p : Check α) := nofun

theorem Steady.perm (h : Steady keys check) (same : keys.Perm more) : Steady more check := by
  intro s a t ran
  obtain ⟨fresh, enters, again⟩ := h s a t ran
  exact ⟨fresh.perm same, ⟨enters.scopes, fun key => by rw [enters.has, same.mem_iff]⟩,
    fun s' scopes new => again s' scopes (new.perm same.symm)⟩

/-- A step that enters nothing comes before others. -/
theorem Steady.after (h : ∀ a, Steady keys (next a)) (quiet : Steady [] check) :
    Steady keys (check >>= next) := quiet.bind h

/-- A condition under which analysis goes on. -/
theorem Steady.unless {cause : Cause} {p : Position} {fails : Prop} [Decidable fails]
    {next : Unit → Check α} (h : Steady keys (next ())) :
    Steady keys (if fails then Typing.fail cause p >>= next else next ()) := by
  split
  · nofun
  · exact h

/-- A step that reads the scopes and leaves the state as it is. -/
theorem Steady.of_get {next : State → Check α}
    (h : ∀ s a t, (next s).run s = .ok (a, t) → t = s ∧
      ∀ s' : State, s'.scopes = s.scopes → (next s').run s' = .ok (a, s')) :
    Steady [] (get >>= next) := by
  intro s a t ran
  obtain ⟨rfl, again⟩ := h s a t ran
  exact ⟨⟨.nil, nofun⟩, ⟨rfl, by simp⟩, fun s' same _ => ⟨s', again s' same⟩⟩

/-- A step that makes one record. -/
theorem Steady.of_record {key : Key} {check : Check Unit}
    (enters : ∀ s : State, ¬ s.tables.Has key → ∃ t, check.run s = .ok ((), t) ∧ s.Enters t [key])
    (refuses : ∀ s : State, s.tables.Has key → ∃ e, check.run s = .error e) :
    Steady [key] check := by
  intro s _ t ran
  have new : ¬ s.tables.Has key := fun had => by
    obtain ⟨e, failed⟩ := refuses s had
    rw [failed] at ran
    cases ran
  obtain ⟨t', ran', entered⟩ := enters s new
  cases ran.symm.trans ran'
  refine ⟨⟨List.nodup_singleton key, by simpa using new⟩, entered, fun s' _ fresh => ?_⟩
  obtain ⟨u, done, _⟩ := enters s' (fresh.2 key List.mem_cons_self)
  exact ⟨u, done⟩

end rules

theorem steady_recordSymbol (mark : Mark) (x : Nat) :
    Steady [(.symbol, mark.id)] (recordSymbol mark x) := by
  refine .of_record (fun s new => ?_) fun s had => ?_
  · obtain ⟨next, recorded⟩ := Table.exists_record new x
    exact ⟨_, run_recordSymbol recorded, rfl, has_recordSymbol recorded⟩
  · have taken : s.tables.symbols.record? mark.id x = none := if_pos had
    simp only [recordSymbol, StateT.run_bind, StateT.run_get, pure_bind, taken]
    exact ⟨_, rfl⟩

theorem steady_recordFunction (mark : Mark) (f : Function) :
    Steady [(.function, mark.id)] (recordFunction mark f) := by
  refine .of_record (fun s new => ?_) fun s had => ?_
  · obtain ⟨next, recorded⟩ := Table.exists_record new f
    simp only [recordFunction, StateT.run_bind, StateT.run_get, pure_bind, recorded]
    refine ⟨_, rfl, rfl, ?_⟩
    rintro ⟨_ | _ | _, id⟩ <;> simp [Tables.Has, Table.isSome_record recorded]
  · have taken : s.tables.functions.record? mark.id f = none := if_pos had
    simp only [recordFunction, StateT.run_bind, StateT.run_get, pure_bind, taken]
    exact ⟨_, rfl⟩

theorem steady_recordOperator (mark : Mark) (op : Operator) :
    Steady [(.operator, mark.id)] (recordOperator mark op) := by
  refine .of_record (fun s new => ?_) fun s had => ?_
  · obtain ⟨next, recorded⟩ := Table.exists_record new op
    simp only [recordOperator, StateT.run_bind, StateT.run_get, pure_bind, recorded]
    refine ⟨_, rfl, rfl, ?_⟩
    rintro ⟨_ | _ | _, id⟩ <;> simp [Tables.Has, Table.isSome_record recorded]
  · have taken : s.tables.operators.record? mark.id op = none := if_pos had
    simp only [recordOperator, StateT.run_bind, StateT.run_get, pure_bind, taken]
    exact ⟨_, rfl⟩

theorem steady_variableOf (symbol : Symbol) : Steady [] (variableOf symbol) := by
  refine .of_get fun s v t ran => ?_
  cases found : s.scopes.lookup? symbol.name symbol.up with
  | none =>
    rw [found] at ran
    cases ran
  | some w =>
    rw [found] at ran
    cases ran
    refine ⟨rfl, fun s' same => ?_⟩
    rw [same, found]
    rfl

theorem steady_functionOf (mark : Mark) (callee : String) (types : List Ty) :
    Steady [] (functionOf mark callee types) := by
  refine .of_get fun s f t ran => ?_
  cases found : s.scopes.function? callee types with
  | none =>
    rw [found] at ran
    cases ran
  | some g =>
    rw [found] at ran
    cases ran
    refine ⟨rfl, fun s' same => ?_⟩
    rw [same, found]
    rfl

theorem steady_refuseEmpty (type : Ty) (e : Expr) : Steady [] (refuseEmpty type e) := by
  unfold refuseEmpty
  split
  · exact .fail
  · exact .pure ()

theorem steady_commonType (current : Option Ty) (next : Ty) (e : Expr) :
    Steady [] (commonType current next e) := by
  refine .after (fun _ => ?_) (steady_refuseEmpty next e)
  split
  · exact .pure _
  · exact .pure _
  · split
    · exact .pure _
    · exact .fail

theorem steady_chooseOperator (mark : Mark) (choice : Option (Operator × Ty)) (cause : Cause)
    (p : Position) : Steady [(.operator, mark.id)] (chooseOperator mark choice cause p) := by
  unfold chooseOperator
  split
  · next op type => exact .bind (steady_recordOperator mark op) fun _ => .pure _
  · exact .fail

theorem steady_resolveCall (mark : Mark) (callee : String) (types : List Ty) :
    Steady [(.function, mark.id)] (resolveCall mark callee types) :=
  .after (fun f => .bind (steady_recordFunction mark f) fun _ => .pure _)
    (steady_functionOf mark callee types)

mutual

theorem steady_expr : ∀ e, Steady (Node.expr e).keys (expr e)
  | .number .. => by rw [Node.keys_eq]; exact .pure _
  | .real .. => by rw [Node.keys_eq]; exact .pure _
  | .logic .. => by rw [Node.keys_eq]; exact .pure _
  | .string .. => by rw [Node.keys_eq]; exact .pure _
  | .material .. => by rw [Node.keys_eq]; exact .pure _
  | .member .. => by rw [Node.keys_eq]; exact .pure _
  | .interpolation _ parts => by
    rw [keys_of_children rfl]
    exact .bind (steady_embeddedParts parts) fun _ => .pure _
  | .symbol s => by
    rw [Node.keys_eq]
    refine .after (fun v => ?_) (steady_variableOf s)
    show Steady [(.symbol, s.mark.id)] _
    exact .bind (steady_recordSymbol s.mark v.symbol) fun _ => .pure _
  | .binary mark left _ right => by
    rw [keys_of_two rfl]
    refine .bind (steady_expr left) fun T => .after (fun _ => ?_) (steady_refuseEmpty T left)
    refine .bind (steady_expr right) fun U => .after (fun _ => ?_) (steady_refuseEmpty U right)
    exact steady_chooseOperator mark _ _ _
  | .unary mark _ operand => by
    rw [keys_of_one rfl]
    refine .bind (steady_expr operand) fun T => .after (fun _ => ?_) (steady_refuseEmpty T operand)
    exact steady_chooseOperator mark _ _ _
  | .index mark collection index => by
    rw [keys_of_two rfl]
    refine .bind (steady_expr collection) fun T =>
      .after (fun _ => ?_) (steady_refuseEmpty T collection)
    refine .bind (steady_expr index) fun U => .after (fun _ => ?_) (steady_refuseEmpty U index)
    exact steady_chooseOperator mark _ _ _
  | .call mark callee arguments => by
    rw [keys_of_children rfl]
    refine .bind (steady_argumentTypes callee arguments) fun types =>
      .bind (steady_resolveCall mark callee types) fun slot => ?_
    split
    · exact .pure _
    · exact .fail
  | .list mark elements => by
    rw [keys_of_children rfl]
    refine .bind (steady_elementType none elements) fun found => ?_
    split <;> exact .pure _
  | .map mark entries => by
    rw [keys_of_children (entryOperands_children mark entries)]
    refine .bind (steady_entryTypes none none entries) fun found => ?_
    split <;> exact .pure _

theorem steady_embeddedParts : ∀ parts,
    Steady (keysOf (Part.embedded parts)) (embeddedParts parts)
  | [] => .pure _
  | .text _ :: rest => steady_embeddedParts rest
  | .embed e :: rest =>
    .bind (steady_expr e) fun _ => .unless (steady_embeddedParts rest)

theorem steady_argumentTypes (callee : String) : ∀ es,
    Steady (keysOf es) (argumentTypes callee es)
  | [] => .pure _
  | e :: rest => by
    refine .bind (steady_expr e) fun T => .unless ?_
    have more := steady_argumentTypes callee rest
    exact (more.bind fun types => .pure (T :: types)).perm (.of_eq (List.append_nil _))

theorem steady_elementType : ∀ current es, Steady (keysOf es) (elementType current es)
  | _, [] => .pure _
  | current, e :: rest => by
    refine .bind (steady_expr e) fun T => .after (fun U => ?_) (steady_commonType current T e)
    exact steady_elementType (some U) rest

theorem steady_entryTypes : ∀ key value entries,
    Steady (keysOf (Machine.entryOperands entries)) (entryTypes key value entries)
  | _, _, [] => .pure _
  | key, value, (k, v) :: rest => by
    refine .bind (steady_expr k) fun T => .after (fun T' => ?_) (steady_commonType key T k)
    refine .bind (steady_expr v) fun U => .after (fun U' => ?_) (steady_commonType value U v)
    exact steady_entryTypes (some T') (some U') rest

end

/-- Analysis finds the type of an expression. -/
def Infers (s : State) (e : Expr) (type : Ty) : Prop := ∃ t, (expr e).run s = .ok (type, t)

theorem Infers.same {s s' : State} {e : Expr} {type : Ty} (h : Infers s e type)
    (scopes : s'.scopes = s.scopes) (fresh : s'.Fresh (Node.expr e).keys) : Infers s' e type := by
  obtain ⟨t, ran⟩ := h
  exact (steady_expr e s type t ran).2.2 s' scopes fresh

/-- Expressions with new nodes keep their types while names mean the same. -/
theorem infers_all {s s' : State} {es : List Expr} {ts : List Ty}
    (h : List.Forall₂ (Infers s) es ts) (scopes : s'.scopes = s.scopes)
    (fresh : s'.Fresh (keysOf es)) : List.Forall₂ (Infers s') es ts := by
  have new : ∀ e ∈ es, s'.Fresh (Node.expr e).keys := fun e mem =>
    ⟨(List.nodup_flatMap.1 fresh.1).1 e mem, fun key held =>
      fresh.2 key (List.mem_flatMap.2 ⟨e, mem, held⟩)⟩
  exact ((List.forall₂_and_left es ts).2 ⟨new, h⟩).imp fun e T ⟨fresh, found⟩ =>
    found.same scopes fresh

/-- Expressions have types one after the other if each of them has its type at first and their nodes
are new. -/
theorem inTurn_iff {es : List Expr} {ts : List Ty} {s : State} :
    (∃ t, InTurn es s ts t) ↔ s.Fresh (keysOf es) ∧ List.Forall₂ (Infers s) es ts := by
  induction es generalizing ts s with
  | nil =>
    constructor
    · rintro ⟨_, ⟨⟩⟩
      exact ⟨⟨.nil, nofun⟩, .nil⟩
    · rintro ⟨_, ⟨⟩⟩
      exact ⟨s, .nil s⟩
  | cons e es ih =>
    constructor
    · rintro ⟨u, found⟩
      cases found with | cons ran others =>
      obtain ⟨fresh, enters, _⟩ := steady_expr e _ _ _ ran
      obtain ⟨later, types⟩ := ih.1 ⟨u, others⟩
      -- The others were found behind `e`, where its keys are taken; before it theirs are still new.
      have all := enters.fresh_append.2 ⟨fresh, later⟩
      refine ⟨all, .cons ⟨_, ran⟩ (infers_all types enters.scopes.symm ?_)⟩
      exact all.sublist (List.sublist_append_right _ _)
    · rintro ⟨fresh, found⟩
      cases found with | cons first types =>
      obtain ⟨t, ran⟩ := first
      obtain ⟨_, enters, _⟩ := steady_expr e _ _ _ ran
      have later := (enters.fresh_append.1 fresh).2
      obtain ⟨u, others⟩ := ih.2 ⟨later, infers_all types enters.scopes later⟩
      exact ⟨u, .cons ran others⟩

theorem keysOf_perm {es es' : List Expr} (same : es.Perm es') : (keysOf es).Perm (keysOf es') :=
  same.flatMap_right _

/-- In another order, expressions have the same types in that order. -/
theorem InTurn.perm {es es' : List Expr} {s t : State} {ts : List Ty} (found : InTurn es s ts t)
    (same : es.Perm es') : ∃ ts' t', InTurn es' s ts' t' ∧ ts'.Perm ts := by
  obtain ⟨fresh, types⟩ := inTurn_iff.1 ⟨t, found⟩
  obtain ⟨ts', types', reordered⟩ := List.perm_comp_forall₂ same.symm types
  obtain ⟨t', found'⟩ := inTurn_iff.2 ⟨fresh.perm (keysOf_perm same), types'⟩
  exact ⟨ts', t', found', reordered⟩

theorem infers_operands {s : State} : ∀ {entries : List (Expr × Expr)} {pairs : List (Ty × Ty)},
    List.Forall₂ (Infers s) (Machine.entryOperands entries) (operandTypes pairs) ↔
      List.Forall₂ (fun entry pair => Infers s entry.1 pair.1 ∧ Infers s entry.2 pair.2) entries
        pairs
  | [], [] => by simp [Machine.entryOperands, operandTypes]
  | [], _ :: _ => by simp [Machine.entryOperands, operandTypes]
  | _ :: _, [] => by simp [Machine.entryOperands, operandTypes]
  | (k, v) :: entries, (T, U) :: pairs => by
    have rest := @infers_operands s entries pairs
    simp only [Machine.entryOperands, operandTypes] at rest
    simp [Machine.entryOperands, operandTypes, rest, and_assoc]

/-- In another order, entries have the same types in that order. -/
theorem InTurn.perm_entries {entries entries' : List (Expr × Expr)} {s t : State}
    {pairs : List (Ty × Ty)}
    (found : InTurn (Machine.entryOperands entries) s (operandTypes pairs) t)
    (same : entries.Perm entries') : ∃ pairs' t',
      InTurn (Machine.entryOperands entries') s (operandTypes pairs') t' ∧ pairs'.Perm pairs := by
  obtain ⟨fresh, types⟩ := inTurn_iff.1 ⟨t, found⟩
  obtain ⟨pairs', types', reordered⟩ :=
    List.perm_comp_forall₂ same.symm (infers_operands.1 types)
  obtain ⟨t', found'⟩ := inTurn_iff.2
    ⟨fresh.perm (keysOf_perm (same.flatMap_right _)), infers_operands.2 types'⟩
  exact ⟨pairs', t', found', reordered⟩

theorem Outcome.some {ts : List Ty} {result : Option Ty} (h : Outcome [] ts result)
    (filled : ts ≠ []) : ∃ t, result = Option.some t ∧ LeastCommon ts t ∧ Compatible ts := by
  obtain ⟨joined, plain⟩ := h
  cases result with
  | none => exact absurd joined filled
  | some t => exact ⟨t, rfl, joined, plain, t, LeastCommon.accepts joined⟩

theorem list_cases {es : List Expr} {s t : State} {ts : List Ty} (found : InTurn es s ts t)
    (filled : es ≠ []) (mark : Mark) :
    (∃ type, (expr (.list mark es)).run s = .ok (.list type, t) ∧ LeastCommon ts type ∧
      Compatible ts) ∨
    (∃ error, (expr (.list mark es)).run s = .error error) ∧ ¬ Compatible ts := by
  rw [expr]
  rcases elementType_cases found (show Joined [] none from rfl) with
    ⟨result, ran, outcome⟩ | ⟨⟨error, failed⟩, apart⟩
  · have some : ts ≠ [] := by
      rintro rfl
      cases found
      exact filled rfl
    obtain ⟨type, rfl, least, goes⟩ := outcome.some some
    refine .inl ⟨type, ?_, least, goes⟩
    rw [run_bind_of_ok ran]
    rfl
  · exact .inr ⟨⟨error, run_bind_of_error failed⟩, apart⟩

theorem map_cases {entries : List (Expr × Expr)} {s t : State} {pairs : List (Ty × Ty)}
    (found : InTurn (Machine.entryOperands entries) s (operandTypes pairs) t)
    (filled : entries ≠ []) (mark : Mark) :
    (∃ key value, (expr (.map mark entries)).run s = .ok (.map key value, t) ∧
      (LeastCommon (pairs.map Prod.fst) key ∧ LeastCommon (pairs.map Prod.snd) value) ∧
      Compatible (pairs.map Prod.fst) ∧ Compatible (pairs.map Prod.snd)) ∨
    (∃ error, (expr (.map mark entries)).run s = .error error) ∧
      ¬ (Compatible (pairs.map Prod.fst) ∧ Compatible (pairs.map Prod.snd)) := by
  rw [expr]
  rcases entryTypes_cases entries pairs found (show Joined [] none from rfl)
    (show Joined [] none from rfl) with ⟨_, _, ran, keys, values⟩ | ⟨⟨error, failed⟩, apart⟩
  · have some : pairs ≠ [] := by
      rintro rfl
      cases entries with
      | nil => exact filled rfl
      | cons entry rest => cases found
    obtain ⟨key, rfl, least, goes⟩ := keys.some (by simpa using some)
    obtain ⟨value, rfl, least', goes'⟩ := values.some (by simpa using some)
    refine .inl ⟨key, value, ?_, ⟨least, least'⟩, goes, goes'⟩
    rw [run_bind_of_ok ran]
    rfl
  · exact .inr ⟨⟨error, run_bind_of_error failed⟩, apart⟩

theorem infers_list {es : List Expr} {s t : State} {ts : List Ty} (found : InTurn es s ts t)
    (filled : es ≠ []) (mark : Mark) (T : Ty) :
    Infers s (.list mark es) T ↔ Compatible ts ∧ ∃ type, T = .list type ∧ LeastCommon ts type := by
  rcases list_cases found filled mark with ⟨type, ran, least, goes⟩ | ⟨⟨error, failed⟩, apart⟩
  · constructor
    · rintro ⟨_, ran'⟩
      cases ran.symm.trans ran'
      exact ⟨goes, type, rfl, least⟩
    · rintro ⟨_, other, rfl, least'⟩
      cases least.unique least'
      exact ⟨t, ran⟩
  · constructor
    · rintro ⟨_, ran⟩
      cases failed.symm.trans ran
    · rintro ⟨goes, _⟩
      exact absurd goes apart

theorem infers_map {entries : List (Expr × Expr)} {s t : State} {pairs : List (Ty × Ty)}
    (found : InTurn (Machine.entryOperands entries) s (operandTypes pairs) t)
    (filled : entries ≠ []) (mark : Mark) (T : Ty) :
    Infers s (.map mark entries) T ↔
      (Compatible (pairs.map Prod.fst) ∧ Compatible (pairs.map Prod.snd)) ∧ ∃ key value,
        T = .map key value ∧ LeastCommon (pairs.map Prod.fst) key ∧
          LeastCommon (pairs.map Prod.snd) value := by
  rcases map_cases found filled mark with
    ⟨key, value, ran, ⟨least, least'⟩, goes⟩ | ⟨⟨error, failed⟩, apart⟩
  · constructor
    · rintro ⟨_, ran'⟩
      cases ran.symm.trans ran'
      exact ⟨goes, key, value, rfl, least, least'⟩
    · rintro ⟨_, other, other', rfl, again, again'⟩
      cases least.unique again
      cases least'.unique again'
      exact ⟨t, ran⟩
  · constructor
    · rintro ⟨_, ran⟩
      cases failed.symm.trans ran
    · rintro ⟨goes, _⟩
      exact absurd goes apart

theorem infers_list_perm {es es' : List Expr} {s t : State} {ts : List Ty}
    (found : InTurn es s ts t) (filled : es ≠ []) (same : es.Perm es') (mark mark' : Mark)
    (T : Ty) : Infers s (.list mark' es') T ↔ Infers s (.list mark es) T := by
  obtain ⟨ts', t', found', reordered⟩ := found.perm same
  have filled' : es' ≠ [] := fun none => filled (List.perm_nil.1 (none ▸ same))
  rw [infers_list found filled, infers_list found' filled', Compatible.perm_iff reordered]
  simp only [LeastCommon.perm_iff reordered]

theorem infers_map_perm {entries entries' : List (Expr × Expr)} {s t : State}
    {pairs : List (Ty × Ty)}
    (found : InTurn (Machine.entryOperands entries) s (operandTypes pairs) t)
    (filled : entries ≠ []) (same : entries.Perm entries') (mark mark' : Mark) (T : Ty) :
    Infers s (.map mark' entries') T ↔ Infers s (.map mark entries) T := by
  obtain ⟨pairs', t', found', reordered⟩ := found.perm_entries same
  have filled' : entries' ≠ [] := fun none => filled (List.perm_nil.1 (none ▸ same))
  have keys := reordered.map Prod.fst
  have values := reordered.map Prod.snd
  rw [infers_map found filled, infers_map found' filled', Compatible.perm_iff keys,
    Compatible.perm_iff values]
  simp only [LeastCommon.perm_iff keys, LeastCommon.perm_iff values]

/-- The elements of a literal have types. Analysis finds a type for the literal if and only if these
types are compatible, and it is that of their least common type; the order of the elements does not
matter. So it is with the keys and the values of a map. -/
theorem literals_have_least_common_types (s t : State) (mark : Mark) :
    (∀ (es : List Expr) (ts : List Ty), es ≠ [] → InTurn es s ts t →
      ((∃ T, Infers s (.list mark es) T) ↔ Compatible ts) ∧
      (∀ T, Infers s (.list mark es) T → ∃ type, T = .list type ∧ LeastCommon ts type) ∧
      ∀ es' mark', es.Perm es' → ∀ T, Infers s (.list mark' es') T ↔ Infers s (.list mark es) T) ∧
    ∀ (entries : List (Expr × Expr)) (pairs : List (Ty × Ty)), entries ≠ [] →
      InTurn (Machine.entryOperands entries) s (operandTypes pairs) t →
      ((∃ T, Infers s (.map mark entries) T) ↔
        Compatible (pairs.map Prod.fst) ∧ Compatible (pairs.map Prod.snd)) ∧
      (∀ T, Infers s (.map mark entries) T → ∃ key value, T = .map key value ∧
        LeastCommon (pairs.map Prod.fst) key ∧ LeastCommon (pairs.map Prod.snd) value) ∧
      ∀ entries' mark', entries.Perm entries' → ∀ T,
        Infers s (.map mark' entries') T ↔ Infers s (.map mark entries) T := by
  constructor
  · intro es ts filled found
    refine ⟨⟨?_, fun goes => ?_⟩, fun T had => ((infers_list found filled mark T).1 had).2,
      fun es' mark' same T => infers_list_perm found filled same mark mark' T⟩
    · rintro ⟨T, had⟩
      exact ((infers_list found filled mark T).1 had).1
    · rcases list_cases found filled mark with ⟨type, ran, _⟩ | ⟨_, apart⟩
      · exact ⟨.list type, t, ran⟩
      · exact absurd goes apart
  · intro entries pairs filled found
    refine ⟨⟨?_, fun goes => ?_⟩, fun T had => ((infers_map found filled mark T).1 had).2,
      fun entries' mark' same T => infers_map_perm found filled same mark mark' T⟩
    · rintro ⟨T, had⟩
      exact ((infers_map found filled mark T).1 had).1
    · rcases map_cases found filled mark with ⟨key, value, ran, _⟩ | ⟨_, apart⟩
      · exact ⟨.map key value, t, ran⟩
      · exact absurd goes apart

namespace Devices

def state : State := ⟨.base .empty, .empty, 0⟩

def mark : Mark := ⟨0, .empty (.start "devices")⟩

def elements : List Expr := [.member mark "lever", .member mark "button"]

def types : List Ty := [.literal (.singleton "lever"), .literal (.singleton "button")]

def entries : List (Expr × Expr) :=
  [(.member mark "lever", .number mark 1), (.member mark "button", .list mark [])]

def pairs : List (Ty × Ty) :=
  [(.literal (.singleton "lever"), .number), (.literal (.singleton "button"), .emptyList)]

end Devices

open Devices in
/-- Literal types are joined; an empty list goes with nothing. -/
theorem literals_have_least_common_types_devices :
    elements ≠ [] ∧ InTurn elements state types state ∧
    Infers state (.list mark elements.reverse)
      (.list (.literal ((NameSet.singleton "lever").union (.singleton "button")))) ∧
    LeastCommon types (.literal ((NameSet.singleton "lever").union (.singleton "button"))) ∧
    entries ≠ [] ∧ InTurn (Machine.entryOperands entries) state (operandTypes pairs) state ∧
    ¬ ∃ T, Infers state (.map mark entries) T := by
  have turn : InTurn elements state types state := .cons rfl (.cons rfl (.nil _))
  have turn' : InTurn (Machine.entryOperands entries) state (operandTypes pairs) state :=
    .cons rfl (.cons rfl (.cons rfl (.cons rfl (.nil _))))
  obtain ⟨lists, maps⟩ := literals_have_least_common_types state state mark
  obtain ⟨_, least, order⟩ := lists elements types nofun turn
  obtain ⟨goes, _⟩ := maps entries pairs nofun turn'
  have found : Infers state (.list mark elements)
      (.list (.literal ((NameSet.singleton "lever").union (.singleton "button")))) := ⟨state, rfl⟩
  obtain ⟨_, same, joined⟩ := least _ found
  refine ⟨nofun, turn, ?_, ?_, nofun, turn', fun had => ?_⟩
  · exact (order elements.reverse mark (List.reverse_perm _).symm _).2 found
  · cases same
    exact joined
  · have plain := (goes.1 had).2.1 .emptyList (by simp [pairs])
    cases plain

end Typing

end CursorScript
