import CursorScript.Proofs.TypeSoundness
import Mathlib.Data.List.Nodup

/-!
Frame search and lexical scoping. An activation has a static link, the activation of the function
around its own, as its caller saw that one. A machine keeps no links: it looks for a symbol in all
frames, the innermost first. That leads to the same frame, because of each function around a place
the latest call is the one that static links lead to.
-/
namespace CursorScript

inductive Activation where
  | script
  | call (function : Nat) (depth : Nat) (link : Activation)

namespace Activation

/-- The number of active calls when the activation began, itself included. -/
def depth : Activation → Nat
  | script => 0
  | call _ depth _ => depth

def functions : Activation → List Nat
  | script => []
  | call function _ link => function :: link.functions

def enclosing? (target : Option Nat) : Activation → Option Activation
  | script => if target = none then some script else none
  | call function depth link =>
    if target = some function then some (call function depth link) else link.enclosing? target

/-- Links from a function further out lead where those from further in do. -/
theorem enclosing?_of_suffix {current : Activation} {outer : List Nat}
    (nodup : current.functions.Nodup) (suffix : outer <:+ current.functions) :
    ∃ link, current.enclosing? outer.head? = some link ∧ link.functions = outer ∧
      ∀ target, (∀ f, target = some f → f ∈ outer) →
        link.enclosing? target = current.enclosing? target := by
  induction current with
  | script =>
    cases List.suffix_nil.1 suffix
    exact ⟨script, rfl, rfl, fun _ _ => rfl⟩
  | call function depth link ih =>
    rw [functions, List.nodup_cons] at nodup
    rcases List.suffix_cons_iff.1 suffix with whole | inner
    · exact ⟨call function depth link, by simp [whole, enclosing?], whole.symm,
        fun _ _ => rfl⟩
    · have other : ∀ {target : Option Nat}, (∀ f, target = some f → f ∈ outer) →
          target ≠ some function := by
        intro target among same
        exact nodup.1 (inner.subset (among function same))
      obtain ⟨found, leads, same, agrees⟩ := ih nodup.2 inner
      refine ⟨found, ?_, same, fun target among => ?_⟩
      · rw [enclosing?, if_neg (other fun f head => List.mem_of_head? head), leads]
      · rw [enclosing?, if_neg (other among), agrees target among]

end Activation

/-- The function around a function of a script; there is none around those at the top. -/
def Site.parent? (sites : List Site) (id : Nat) : Option Nat :=
  (sites.find? fun site => site.id = id).bind fun site => site.point.function

theorem Site.parent?_eq {sites : List Site} (distinct : (sites.map Site.id).Nodup) {site : Site}
    (known : site ∈ sites) : Site.parent? sites site.id = site.point.function := by
  have exists_site : (sites.find? fun other => other.id = site.id).isSome = true :=
    List.find?_isSome.2 ⟨site, known, by simp⟩
  obtain ⟨other, found⟩ := Option.isSome_iff_exists.1 exists_site
  have same : other.id = site.id := by simpa using List.find?_some found
  rw [Site.parent?, found, Option.bind_some,
    List.inj_on_of_nodup_map distinct (List.mem_of_find?_eq_some found) known same]

/-- A run with the activations of the active calls, the innermost first. The link of a call leads to
where the links of its caller lead for the function around. -/
inductive Machine.Traces (sites : List Site) (start : Machine × Context) :
    Machine × Context → List Activation → Prop
  | start : Traces sites start start [.script]
  | within {a b : Machine × Context} {acts : List Activation} (run : Traces sites start a acts)
      (next : Next a b) (same : b.1.depth = a.1.depth) : Traces sites start b acts
  | call {a b : Machine × Context} {current link : Activation} {acts : List Activation}
      {f : Function} {decl : FunctionDecl Stmt} {span : Span} {n : Nat} {K : List Work}
      (run : Traces sites start a (current :: acts)) (next : Next a b)
      (more : a.1.depth < b.1.depth) (calls : a.1.work.items = .invoke f span n :: K)
      (script : f.body = .script decl)
      (leads : current.enclosing? (Site.parent? sites decl.mark.id) = some link) :
      Traces sites start b (.call decl.mark.id b.1.depth link :: current :: acts)
  | leave {a b : Machine × Context} {current : Activation} {acts : List Activation}
      (run : Traces sites start a (current :: acts)) (next : Next a b)
      (fewer : b.1.depth < a.1.depth) : Traces sites start b acts

namespace Layout

inductive Aligned : List Point → List Activation → Prop
  | script {P : Point} (chain : P.chain = []) : Aligned [P] [.script]
  | call {P Q : Point} {points : List Point} {current link : Activation} {acts : List Activation}
      {id : Nat} {outer : List Nat} (chain : P.chain = id :: outer) (distinct : P.chain.Nodup)
      (nested : outer <:+ Q.chain) (leads : current.enclosing? outer.head? = some link)
      (below : Aligned (Q :: points) (current :: acts)) :
      Aligned (P :: Q :: points)
        (.call id (current :: acts).length link :: current :: acts)

namespace Aligned
variable {P Q : Point} {points : List Point} {current : Activation} {acts : List Activation}

theorem length_eq (h : Aligned points acts) : points.length = acts.length := by
  induction h with
  | script => rfl
  | call _ _ _ _ _ ih => simpa using ih

/-- Static links go through the functions around the place. -/
theorem functions_eq : ∀ {P : Point} {points : List Point} {current : Activation}
    {acts : List Activation}, Aligned (P :: points) (current :: acts) →
      current.functions = P.chain ∧ P.chain.Nodup
  | _, _, _, _, .script chain => by simp [Activation.functions, chain]
  | _, _, _, _, .call chain distinct nested leads below => by
    obtain ⟨functions, nodup⟩ := functions_eq below
    rw [← functions] at nested nodup
    obtain ⟨link, leads', same, _⟩ := Activation.enclosing?_of_suffix nodup nested
    rw [leads] at leads'
    cases leads'
    exact ⟨by rw [Activation.functions, same, chain], distinct⟩

/-- Static links lead to the latest call of each function around. -/
theorem latest : ∀ {P : Point} {points : List Point} {current : Activation}
    {acts : List Activation}, Aligned (P :: points) (current :: acts) →
      ∀ {target : Option Nat}, (∀ f, target = some f → f ∈ P.chain) →
        ∃ found i, current.enclosing? target = some found ∧
          (P :: points).findIdx? (fun Q => Q.function = target) = some i ∧
          (current :: acts)[i]? = some found
  | P, _, _, _, .script chain, target, among => by
    cases target with
    | none => exact ⟨.script, 0, rfl, by simp [List.findIdx?_cons, Point.function, chain], rfl⟩
    | some f =>
      have mem := among f rfl
      rw [chain] at mem
      cases mem
  | P, _, _, _, @call _ Q points current link acts id outer chain distinct nested leads below,
      target, among => by
    have function : P.function = some id := by rw [Point.function, chain]; rfl
    by_cases own : target = some id
    · exact ⟨_, 0, if_pos own, by simp [List.findIdx?_cons, function, own], rfl⟩
    -- The links of the call go on as those of its caller do, and the call itself is not the target.
    · have further : ∀ f, target = some f → f ∈ outer := by
        intro f same
        have mem := among f same
        rw [chain] at mem
        rcases List.mem_cons.1 mem with rfl | mem
        · exact absurd same own
        · exact mem
      obtain ⟨functions, nodup⟩ := functions_eq below
      obtain ⟨link', leads', _, agrees⟩ :=
        Activation.enclosing?_of_suffix (functions ▸ nodup) (functions ▸ nested)
      rw [leads] at leads'
      cases leads'
      obtain ⟨found, i, reached, first, there⟩ :=
        latest below fun f same => nested.subset (further f same)
      refine ⟨found, i + 1, ?_, ?_, there⟩
      · rw [Activation.enclosing?, if_neg own, agrees target further, reached]
      · rw [List.findIdx?_cons, function, if_neg (by simpa using Ne.symm own), first]
        rfl

theorem depth_eq (h : Aligned points acts) {i : Nat} {act : Activation}
    (there : acts[i]? = some act) : act.depth + i + 1 = acts.length := by
  induction h generalizing i with
  | script =>
    cases i with
    | zero =>
      cases there
      rfl
    | succ i => cases there
  | call _ _ _ _ _ ih =>
    cases i with
    | zero =>
      cases there
      simp [Activation.depth]
    | succ i =>
      have below := ih there
      simp only [List.length_cons] at below ⊢
      omega

theorem congr (h : Aligned (P :: points) acts) (chain : Q.chain = P.chain) :
    Aligned (Q :: points) acts := by
  cases h with
  | script top => exact .script (chain.trans top)
  | call inner distinct nested leads below =>
    exact .call (chain.trans inner) (chain ▸ distinct) nested leads below

end Aligned

/-- The first frame with a symbol is that of the latest call of the function that declares it. -/
theorem findIdx?_eq {L : Layout} {points : List Point} {frames : List Frame} {frame : Frame}
    {x : Nat} {d : Declaration}
    (fits : List.Forall₂ (fun P frame => L.FrameFits P.function frame) points frames)
    (declared : L.declarations[x]? = some d) (held : holder? d.owner points frames = some frame)
    (found : (frame.lookup x).isSome = true) :
    frames.findIdx? (fun f => (f.lookup x).isSome) =
      points.findIdx? (fun P => P.function = d.owner) := by
  induction fits with
  | nil => cases held
  | cons first _ ih =>
    rw [List.findIdx?_cons, List.findIdx?_cons]
    unfold holder? at held
    split at held
    · next own =>
      cases held
      simp [found, own]
    · next other =>
      simp [first.lookup_eq_none declared other, other, ih held]

end Layout

/-- The frame that a search finds is the one that is read and assigned to. -/
theorem search_of_findIdx? {frames : List Frame} {x i : Nat}
    (h : frames.findIdx? (fun f => (f.lookup x).isSome) = some i) :
    ∃ frame, frames[i]? = some frame ∧ (frame.lookup x).isSome = true ∧
      frames.findSome? (fun f => f.lookup x) = frame.lookup x ∧
      ∀ v, Stack.replaceFirst? (Frame.assign? x v) frames =
        some (frames.set i (Frame.set x v frame)) := by
  induction frames generalizing i with
  | nil => cases h
  | cons frame frames ih =>
    rw [List.findIdx?_cons] at h
    split at h
    · next found =>
      cases h
      obtain ⟨v, looked⟩ := Option.isSome_iff_exists.1 found
      refine ⟨frame, rfl, found, by simp [looked], fun v => ?_⟩
      simp [Stack.replaceFirst?, Frame.assign?, found]
    · next missing =>
      obtain ⟨j, first, rfl⟩ := Option.map_eq_some_iff.1 h
      obtain ⟨holder, there, found, read, assigned⟩ := ih first
      have looked : frame.lookup x = none := by
        rwa [Bool.not_eq_true, Option.isSome_eq_false_iff, Option.isNone_iff_eq_none] at missing
      refine ⟨holder, there, found, by simp [looked, read], fun v => ?_⟩
      simp [Stack.replaceFirst?, Frame.assign?, looked, assigned v]

namespace Machine

section runs
variable {p : Program} {library : Library} {refuses : Refusal} {tables : Tables} {maxDepth : Nat}
  {start : Context} {a : Machine × Context} {acts : List Activation}

/-- The activations of a run are those of the active calls. -/
theorem aligned_of_traces (sound : p.Sound library refuses tables)
    (run : Traces (p.sites tables) (initial p tables maxDepth, start) a acts) :
    ∃ P callers, a.1.Fitted (p.layout library refuses tables) ⟨tables, maxDepth⟩ P callers ∧
      Layout.Aligned (P :: callers.map Caller.point) acts := by
  induction run with
  | start => exact ⟨_, _, Program.fitted_initial sound maxDepth, .script rfl⟩
  | within _ next same ih =>
    obtain ⟨P, callers, fitted, aligned⟩ := ih
    rw [fitted.depth_eq] at same
    rcases fitted.goes rfl sound.functions next with ⟨Q, chain, stays⟩ |
      ⟨_, _, _, _, _, _, _, _, _, _, enters⟩ | ⟨s, others, rfl, leaves⟩
    · exact ⟨Q, callers, stays, aligned.congr chain⟩
    · rw [enters.depth_eq, List.length_cons] at same
      omega
    · rw [leaves.depth_eq, List.length_cons] at same
      omega
  | call _ next more calls script leads ih =>
    obtain ⟨P, callers, fitted, aligned⟩ := ih
    rw [fitted.depth_eq] at more
    rcases fitted.goes rfl sound.functions next with ⟨Q, chain, stays⟩ |
      ⟨f, site, _, _, s, calls', script', known, nested, rfl, enters⟩ | ⟨s, others, rfl, leaves⟩
    · rw [stays.depth_eq] at more
      exact absurd more (Nat.lt_irrefl _)
    · cases calls.symm.trans calls'
      cases script.symm.trans script'
      refine ⟨_, _, enters, ?_⟩
      have length := aligned.length_eq
      rw [List.length_cons, List.length_map] at length
      rw [enters.depth_eq, List.length_cons, length]
      rw [show site.decl.mark.id = site.id from rfl, Site.parent?_eq sound.distinct known] at leads
      exact .call rfl (sound.functions site known).distinct nested leads aligned
    · rw [leaves.depth_eq, List.length_cons] at more
      omega
  | leave _ next fewer ih =>
    obtain ⟨P, callers, fitted, aligned⟩ := ih
    rw [fitted.depth_eq] at fewer
    rcases fitted.goes rfl sound.functions next with ⟨Q, chain, stays⟩ |
      ⟨_, _, _, _, _, _, _, _, _, _, enters⟩ | ⟨s, others, rfl, leaves⟩
    · rw [stays.depth_eq] at fewer
      exact absurd fewer (Nat.lt_irrefl _)
    · rw [enters.depth_eq, List.length_cons] at fewer
      omega
    · cases aligned with
      | call _ _ _ _ below => exact ⟨_, _, leaves, below⟩

/-- Every run has its activations: the links of a caller lead to the function around each function
that it calls. -/
theorem traces_of_reaches (sound : p.Sound library refuses tables)
    (reached : Reaches (initial p tables maxDepth, start) a) :
    ∃ acts, Traces (p.sites tables) (initial p tables maxDepth, start) a acts := by
  induction reached with
  | refl => exact ⟨_, .start⟩
  | tail _ next ih =>
    obtain ⟨acts, run⟩ := ih
    obtain ⟨P, callers, fitted, aligned⟩ := aligned_of_traces sound run
    cases acts with
    | nil => exact absurd aligned.length_eq (by simp)
    | cons current acts =>
      rcases fitted.goes rfl sound.functions next with ⟨Q, chain, stays⟩ |
        ⟨f, site, _, _, s, calls, script, known, nested, rfl, enters⟩ | ⟨s, others, rfl, leaves⟩
      · exact ⟨_, run.within next (by rw [stays.depth_eq, fitted.depth_eq])⟩
      · obtain ⟨functions, nodup⟩ := aligned.functions_eq
        obtain ⟨link, leads, _⟩ :=
          Activation.enclosing?_of_suffix (functions ▸ nodup) (functions ▸ nested)
        have around : current.enclosing? site.point.function = some link := leads
        rw [← Site.parent?_eq sound.distinct known] at around
        refine ⟨_, run.call next ?_ calls script around⟩
        rw [enters.depth_eq, fitted.depth_eq]
        exact Nat.lt_succ_self _
      · refine ⟨_, run.leave next ?_⟩
        rw [leaves.depth_eq, fitted.depth_eq]
        exact Nat.lt_succ_self _

end runs

end Machine

/-- A search for a symbol ends where static links lead. Of the activations `acts`, the innermost first,
`target` is the one to which links from the current lead for the function that declares the symbol;
its frame is the first that has the symbol, and it is the one that is read and assigned to. -/
def Machine.FindsByLinks (p : Program) (tables : Tables) (m : Machine) (acts : List Activation)
    (x : Nat) : Prop :=
  ∃ d current target i frame, p.declarations[x]? = some d ∧
    tables.symbols.get? d.node = some x ∧ acts.head? = some current ∧
    current.enclosing? d.owner = some target ∧ acts[i]? = some target ∧
    m.frames.items[i]? = some frame ∧ (frame.lookup x).isSome = true ∧
    m.frames.items.findIdx? (fun f => (f.lookup x).isSome) = some i ∧
    m.lookup? x = frame.lookup x ∧
    ∀ v, Stack.replaceFirst? (Frame.assign? x v) m.frames.items =
      some (m.frames.items.set i (Frame.set x v frame))

theorem Machine.findsByLinks_of_seen {p : Program} {library : Library} {refuses : Refusal}
    {tables : Tables} (sound : p.Sound library refuses tables) {σ : Setting} {P : Point}
    {callers : List Caller} {m : Machine} {acts : List Activation}
    (fitted : m.Fitted (p.layout library refuses tables) σ P callers)
    (aligned : Layout.Aligned (P :: callers.map Caller.point) acts) {x : Nat}
    (seen : x ∈ P.visible) : m.FindsByLinks p tables acts x := by
  have standing := fitted.typed.placed.standing
  obtain ⟨d, frame, declared, held, found⟩ := standing.covers x seen
  obtain ⟨d', declared', around⟩ := standing.owned x seen
  rw [declared] at declared'
  cases declared'
  cases acts with
  | nil => exact absurd aligned.length_eq (by simp)
  | cons current acts =>
    obtain ⟨target, i, leads, first, there⟩ := aligned.latest around
    rw [← Layout.findIdx?_eq standing.fits declared held found] at first
    obtain ⟨frame, held, found, read, assigned⟩ := search_of_findIdx? first
    exact ⟨d, current, target, i, frame, declared, sound.symbols x d declared, rfl, leads, there,
      held, found, first, read, assigned⟩

/-- Frame search implements lexical scoping, whatever functions the host provides. Every run of a
checked script has activations with static links, one for each frame and each at a depth of its own,
and what is read or assigned to is found by following them. -/
theorem frame_search_is_lexical {source file : String} {p : Program} {library : Library}
    {tables : Tables} (read : Program.ofSource source file = .ok p) (native : library.Native)
    (accepted : p.analyse library = .ok tables) (maxDepth : Nat) (start : Context) {m : Machine}
    {c : Context}
    (reached : Machine.Reaches (Machine.initial p tables maxDepth, start) (m, c)) :
    (∃ acts, Machine.Traces (p.sites tables) (Machine.initial p tables maxDepth, start) (m, c)
      acts) ∧
    ∀ acts, Machine.Traces (p.sites tables) (Machine.initial p tables maxDepth, start) (m, c) acts →
      acts.length = m.frames.items.length ∧
      (∀ i act, acts[i]? = some act → act.depth + i = m.depth) ∧
      (∀ s K, m.work.items = .expr (.symbol s) :: K →
        ∃ x, m.tables.symbols.get? s.mark.id = some x ∧ m.FindsByLinks p tables acts x) ∧
      (∀ x op q K, m.work.items = .store x op q :: K → m.FindsByLinks p tables acts x) := by
  -- Values may be of any types here, so it does not matter why a host function refuses.
  have sound := Program.sound_of_analyse read native accepted fun _ _ _ => True
  refine ⟨Machine.traces_of_reaches sound reached, fun acts run => ?_⟩
  obtain ⟨P, callers, fitted, aligned⟩ := Machine.aligned_of_traces sound run
  have same : m.tables = tables := congrArg Setting.tables fitted.setting
  have frames := fitted.typed.placed.standing.length_eq
  have points := aligned.length_eq
  obtain ⟨placed, slots, awaits, _⟩ := fitted.typed
  refine ⟨points.symm.trans frames, fun i act there => ?_, fun s K work => ?_,
    fun x op q K work => ?_⟩
  · have depth := aligned.depth_eq there
    rw [fitted.depth_eq]
    rw [List.length_cons, List.length_map] at points
    omega
  · rw [work] at awaits
    cases awaits with
    | resume rest => cases rest
    | expr yields _ _ =>
      cases yields with
      | symbol recorded seen _ =>
        exact ⟨_, same ▸ recorded, Machine.findsByLinks_of_seen sound fitted aligned seen⟩
  · rw [work] at awaits
    cases awaits with
    | resume rest => cases rest
    | store seen _ _ => exact Machine.findsByLinks_of_seen sound fitted aligned seen
    | compute seen _ _ _ => exact Machine.findsByLinks_of_seen sound fitted aligned seen

/-- A script with a function inside another that it calls. -/
def nestedSource : String :=
  "function f(n:number):number\x7bvar x:number=n;
function g():number\x7bx-=1;if x<1\x7breturn x;\x7dreturn f(x);\x7d
return g();\x7d
print f(2);"

/-- Four calls deep there are two activations of the function that declares `x`, which is assigned to
and then read. -/
theorem frame_search_is_lexical_nested :
    ∃ p tables, Program.ofSource nestedSource "" = .ok p ∧
      p.analyse (.standard .builtIn) = .ok tables ∧
      (∃ m c x op q K acts,
        Machine.Reaches (Machine.initial p tables 8, Context.initial "" 0) (m, c) ∧
        Machine.Traces (p.sites tables) (Machine.initial p tables 8, Context.initial "" 0) (m, c)
          acts ∧
        m.depth = 4 ∧ m.work.items = .store x op q :: K ∧ m.FindsByLinks p tables acts x) ∧
      ∃ m c s x K acts,
        Machine.Reaches (Machine.initial p tables 8, Context.initial "" 0) (m, c) ∧
        Machine.Traces (p.sites tables) (Machine.initial p tables 8, Context.initial "" 0) (m, c)
          acts ∧
        m.depth = 4 ∧ m.work.items = .expr (.symbol s) :: K ∧
        m.tables.symbols.get? s.mark.id = some x ∧ m.FindsByLinks p tables acts x := by
  have runs : ((Program.runTo? (.standard .builtIn) nestedSource 8 (.initial "" 0) 35).any fun a =>
      a.1.depth = 4 && a.1.work.items.head?.any Work.isStore &&
      (Machine.advance 3 a).any fun b =>
        b.1.depth = 4 && b.1.work.items.head?.any Work.isRead) = true := by
    decide +kernel
  obtain ⟨⟨m, c⟩, there, holds⟩ := (Option.any_eq_true _ _).1 runs
  simp only [Bool.and_eq_true, decide_eq_true_eq] at holds
  obtain ⟨⟨deep, stores⟩, holds⟩ := holds
  obtain ⟨⟨m', c'⟩, further, holds⟩ := (Option.any_eq_true _ _).1 holds
  simp only [Bool.and_eq_true, decide_eq_true_eq] at holds
  obtain ⟨deep', reads⟩ := holds
  obtain ⟨item, first, stores⟩ := (Option.any_eq_true _ _).1 stores
  obtain ⟨K, work⟩ := List.head?_eq_some_iff.1 first
  obtain ⟨item', first', reads⟩ := (Option.any_eq_true _ _).1 reads
  obtain ⟨K', work'⟩ := List.head?_eq_some_iff.1 first'
  obtain ⟨x, op, q, rfl⟩ := Work.eq_store_of_isStore stores
  obtain ⟨s, rfl⟩ := Work.eq_symbol_of_isRead reads
  obtain ⟨p, tables, read, accepted, reached⟩ := Program.reaches_of_runTo? there
  have reached' := reached.trans (Machine.reaches_of_advance further)
  have native := Library.native_standard .builtIn
  obtain ⟨⟨acts, run⟩, found⟩ := frame_search_is_lexical read native accepted 8 _ reached
  obtain ⟨⟨acts', run'⟩, found'⟩ := frame_search_is_lexical read native accepted 8 _ reached'
  obtain ⟨y, recorded, finds⟩ := (found' acts' run').2.2.1 s K' work'
  exact ⟨p, tables, read, accepted,
    ⟨m, c, x, op, q, K, acts, reached, run, deep, work, (found acts run).2.2.2 x op q K work⟩,
    ⟨m', c', s, y, K', acts', reached', run', deep', work', recorded, finds⟩⟩

end CursorScript
