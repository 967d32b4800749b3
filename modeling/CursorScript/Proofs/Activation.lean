import CursorScript.Proofs.Continuation

/-!
Frames of active calls. The frame of a call holds variables of its own function only, each with a
value of its type. Of each function around a place the latest call is the one whose variables are
meant there, and what can be seen is held by its frame.
-/
namespace CursorScript

/-- The frame of the latest call of a function, where `points` are the places of the active calls. -/
def holder? (function : Option Nat) : (points : List Point) → List Frame → Option Frame
  | P :: points, frame :: frames =>
    if P.function = function then some frame else holder? function points frames
  | _, _ => none

namespace Layout

/-- A value fills a slot if the functions of the host keep to their types. -/
def Fills (L : Layout) (v : Value) (slot : Option Ty) : Prop := L.Trusted → v.Fills slot

/-- A frame holds variables of one function, with values of their types. -/
def FrameFits (L : Layout) (function : Option Nat) (frame : Frame) : Prop :=
  ∀ x v, (x, v) ∈ frame → ∃ d, L.declarations[x]? = some d ∧ d.owner = function ∧
    L.Fills v (some d.type)

def FillAll (L : Layout) (values : List Value) (types : List Ty) : Prop :=
  List.Forall₂ (fun v type => L.Fills v (some type)) values types

/-- Each symbol is held by the frame of the latest call of the function that declares it. -/
def Covers (L : Layout) (points : List Point) (frames : List Frame) (symbols : List Nat) : Prop :=
  ∀ x ∈ symbols, ∃ d frame, L.declarations[x]? = some d ∧
    holder? d.owner points frames = some frame ∧ (frame.lookup x).isSome = true

/-- The frames of active calls fit the places where these are. A function is called from within the
function that it is declared in, or from a function inside that. -/
inductive Standing (L : Layout) : List Point → List Frame → Prop
  | script {P : Point} {frame : Frame} (chain : P.chain = []) (owned : L.Owned P)
      (fits : L.FrameFits none frame) (covers : L.Covers [P] [frame] P.visible) :
      Standing L [P] [frame]
  | call {P Q : Point} {points : List Point} {frame : Frame} {frames : List Frame} {id : Nat}
      {outer : List Nat} (chain : P.chain = id :: outer) (distinct : P.chain.Nodup)
      (nested : outer <:+ Q.chain) (owned : L.Owned P) (fits : L.FrameFits (some id) frame)
      (covers : L.Covers (P :: Q :: points) (frame :: frames) P.visible)
      (below : Standing L (Q :: points) frames) : Standing L (P :: Q :: points) (frame :: frames)

end Layout

namespace Frame

theorem mem_set {x y : Nat} {v w : Value} {frame : Frame} (h : (y, w) ∈ Frame.set x v frame) :
    (y = x ∧ w = v) ∨ (y, w) ∈ frame := by
  induction frame with
  | nil =>
    cases List.mem_singleton.1 h
    exact .inl ⟨rfl, rfl⟩
  | cons entry rest ih =>
    obtain ⟨z, old⟩ := entry
    unfold Frame.set at h
    split at h
    · rcases List.mem_cons.1 h with same | mem
      · cases same
        exact .inl ⟨rfl, rfl⟩
      · exact .inr (List.mem_cons_of_mem _ mem)
    · rcases List.mem_cons.1 h with same | mem
      · exact .inr (same ▸ List.mem_cons_self)
      · rcases ih mem with set | old
        · exact .inl set
        · exact .inr (List.mem_cons_of_mem _ old)

theorem mem_of_lookup {frame : Frame} {x : Nat} {v : Value} (h : frame.lookup x = some v) :
    (x, v) ∈ frame := by
  obtain ⟨before, behind, same, _⟩ := List.lookup_eq_some_iff.1 h
  rw [same]
  simp

theorem isSome_lookup_set {frame : Frame} {x y : Nat} {v : Value}
    (h : (frame.lookup y).isSome = true) : ((Frame.set x v frame).lookup y).isSome = true := by
  rw [Frame.lookup_set]
  split
  · rfl
  · exact h

end Frame

namespace Layout
variable {L : Layout} {P Q : Point} {points : List Point} {frame : Frame} {frames : List Frame}

theorem FrameFits.set {function : Option Nat} (h : L.FrameFits function frame) {x : Nat} {v : Value}
    {d : Declaration} (declared : L.declarations[x]? = some d) (owner : d.owner = function)
    (fills : L.Fills v (some d.type)) : L.FrameFits function (Frame.set x v frame) := by
  intro y w mem
  rcases Frame.mem_set mem with ⟨rfl, rfl⟩ | old
  · exact ⟨d, declared, owner, fills⟩
  · exact h y w old

structure Renews (L : Layout) (old new : Frame) : Prop where
  holds : ∀ x, (old.lookup x).isSome = true → (new.lookup x).isSome = true
  fits : ∀ function, L.FrameFits function old → L.FrameFits function new

theorem Renews.refl (frame : Frame) : L.Renews frame frame := ⟨fun _ h => h, fun _ h => h⟩

theorem renews_set {x : Nat} {v : Value} {d : Declaration}
    (declared : L.declarations[x]? = some d) (fills : L.Fills v (some d.type))
    (owner : ∀ function, L.FrameFits function frame → d.owner = function) :
    L.Renews frame (Frame.set x v frame) :=
  ⟨fun _ h => Frame.isSome_lookup_set h, fun function h =>
    h.set declared (owner function h) fills⟩

theorem holder?_of_renews {function : Option Nat} {frames' : List Frame}
    (renewed : List.Forall₂ L.Renews frames frames')
    (h : holder? function points frames = some frame) :
    ∃ frame', holder? function points frames' = some frame' ∧ L.Renews frame frame' := by
  induction renewed generalizing points with
  | nil => cases points <;> cases h
  | cons first _ ih =>
    cases points with
    | nil => cases h
    | cons P points =>
      unfold holder? at h ⊢
      split at h
      · next here =>
        cases h
        rw [if_pos here]
        exact ⟨_, rfl, first⟩
      · next other =>
        rw [if_neg other]
        exact ih h

theorem Covers.renew {symbols : List Nat} {frames' : List Frame}
    (h : L.Covers points frames symbols) (renewed : List.Forall₂ L.Renews frames frames') :
    L.Covers points frames' symbols := by
  intro x mem
  obtain ⟨d, frame, declared, held, found⟩ := h x mem
  obtain ⟨frame', held', renews⟩ := holder?_of_renews renewed held
  exact ⟨d, frame', declared, held', renews.holds x found⟩

theorem Standing.renew {frames' : List Frame} (h : L.Standing points frames)
    (renewed : List.Forall₂ L.Renews frames frames') : L.Standing points frames' := by
  induction h generalizing frames' with
  | script chain owned fits covers =>
    have covers' := covers.renew renewed
    cases renewed with
    | cons first others =>
      cases others
      exact .script chain owned (first.fits _ fits) covers'
  | call chain distinct nested owned fits covers _ ih =>
    have covers' := covers.renew renewed
    cases renewed with
    | cons first others =>
      exact .call chain distinct nested owned (first.fits _ fits) covers' (ih others)

theorem Standing.length_eq (h : L.Standing points frames) : points.length = frames.length := by
  induction h with
  | script => rfl
  | call _ _ _ _ _ _ _ ih => simp [ih]

theorem holder?_congr {function : Option Nat} (same : Q.chain = P.chain) :
    holder? function (Q :: points) frames = holder? function (P :: points) frames := by
  have function_eq : Q.function = P.function := by rw [Point.function, same, Point.function]
  cases frames with
  | nil => rfl
  | cons frame frames => rw [holder?, holder?, function_eq]

/-- The innermost call may be seen from a place that sees less. -/
theorem Standing.narrow (h : L.Standing (P :: points) frames) (chain : Q.chain = P.chain)
    (visible : Q.visible ⊆ P.visible) : L.Standing (Q :: points) frames := by
  have narrowed : ∀ {fs : List Frame}, L.Covers (P :: points) fs P.visible →
      L.Covers (Q :: points) fs Q.visible := by
    intro fs covers x mem
    obtain ⟨d, frame, declared, held, found⟩ := covers x (visible mem)
    exact ⟨d, frame, declared, holder?_congr chain ▸ held, found⟩
  have fewer : L.Owned P → L.Owned Q := by
    intro owned x mem
    rw [chain]
    exact owned x (visible mem)
  cases h with
  | script top owned fits covers =>
    exact .script (chain.trans top) (fewer owned) fits (narrowed covers)
  | call inner distinct nested owned fits covers below =>
    exact .call (chain.trans inner) (chain ▸ distinct) nested (fewer owned) fits (narrowed covers)
      below

/-- Each frame holds variables of the function that its call is of. -/
theorem Standing.fits (h : L.Standing points frames) :
    List.Forall₂ (fun P frame => L.FrameFits P.function frame) points frames := by
  induction h with
  | script chain _ fits =>
    refine .cons ?_ .nil
    rwa [Point.function, chain]
  | call chain _ _ _ fits _ _ ih =>
    refine .cons ?_ ih
    rwa [Point.function, chain]

theorem Standing.covers (h : L.Standing (P :: points) frames) :
    L.Covers (P :: points) frames P.visible := by
  cases h with
  | script _ _ _ covers => exact covers
  | call _ _ _ _ _ covers => exact covers

theorem Standing.owned (h : L.Standing (P :: points) frames) : L.Owned P := by
  cases h with
  | script _ owned => exact owned
  | call _ _ _ owned => exact owned

theorem FrameFits.lookup_eq_none {function : Option Nat} (h : L.FrameFits function frame) {x : Nat}
    {d : Declaration} (declared : L.declarations[x]? = some d) (other : function ≠ d.owner) :
    frame.lookup x = none := by
  cases found : frame.lookup x with
  | none => rfl
  | some v =>
    obtain ⟨d', declared', owner, _⟩ := h x v (Frame.mem_of_lookup found)
    rw [declared] at declared'
    cases declared'
    exact absurd owner.symm other

/-- A search from the innermost frame ends at the latest call of the function that declares the
symbol. -/
theorem findSome?_eq_lookup {x : Nat} {d : Declaration}
    (fits : List.Forall₂ (fun P frame => L.FrameFits P.function frame) points frames)
    (declared : L.declarations[x]? = some d) (held : holder? d.owner points frames = some frame)
    (found : (frame.lookup x).isSome = true) :
    frames.findSome? (fun f => f.lookup x) = frame.lookup x := by
  induction fits with
  | nil => cases held
  | cons first _ ih =>
    unfold holder? at held
    split at held
    · cases held
      obtain ⟨v, found⟩ := Option.isSome_iff_exists.1 found
      simp [found]
    · next other =>
      rw [List.findSome?_cons, first.lookup_eq_none declared other]
      exact ih held

/-- Every slot of every frame holds a value of the type of its variable. -/
theorem Standing.slot (h : L.Standing points frames) {x : Nat} {v : Value} (mem : frame ∈ frames)
    (slot : (x, v) ∈ frame) : ∃ d, L.declarations[x]? = some d ∧ L.Fills v (some d.type) := by
  have held : ∃ function, L.FrameFits function frame := by
    clear slot
    induction h with
    | script _ _ fits =>
      cases List.mem_singleton.1 mem
      exact ⟨_, fits⟩
    | call _ _ _ _ fits _ _ ih =>
      rcases List.mem_cons.1 mem with rfl | mem
      · exact ⟨_, fits⟩
      · exact ih mem
  obtain ⟨function, fits⟩ := held
  obtain ⟨d, declared, _, fills⟩ := fits x v slot
  exact ⟨d, declared, fills⟩

/-- A symbol that can be seen is held, with a value of its type. -/
theorem Standing.read (h : L.Standing (P :: points) frames) {x : Nat} {d : Declaration}
    (seen : x ∈ P.visible) (declared : L.declarations[x]? = some d) :
    ∃ v, frames.findSome? (fun f => f.lookup x) = some v ∧ L.Fills v (some d.type) := by
  obtain ⟨d', frame, declared', held, found⟩ := h.covers x seen
  rw [declared] at declared'
  cases declared'
  obtain ⟨v, looked⟩ := Option.isSome_iff_exists.1 found
  have first := (findSome?_eq_lookup h.fits declared held found).trans looked
  obtain ⟨holder, mem, there⟩ := List.exists_of_findSome?_eq_some first
  obtain ⟨d', declared', fills⟩ := h.slot mem (Frame.mem_of_lookup there)
  rw [declared] at declared'
  cases declared'
  exact ⟨v, first, fills⟩

theorem replaceFirst?_renews {x : Nat} {d : Declaration} {v : Value}
    (fits : List.Forall₂ (fun P frame => L.FrameFits P.function frame) points frames)
    (declared : L.declarations[x]? = some d) (fills : L.Fills v (some d.type))
    (held : holder? d.owner points frames = some frame)
    (found : (frame.lookup x).isSome = true) :
    ∃ frames', Stack.replaceFirst? (Frame.assign? x v) frames = some frames' ∧
      List.Forall₂ L.Renews frames frames' := by
  induction fits with
  | nil => cases held
  | @cons P first points frames frameFits others ih =>
    unfold holder? at held
    split at held
    · cases held
      refine ⟨Frame.set x v frame :: frames, ?_, .cons ?_ (List.forall₂_same.2 fun f _ => .refl f)⟩
      · simp [Stack.replaceFirst?, Frame.assign?, found]
      · refine renews_set declared fills fun function frameFits => ?_
        obtain ⟨w, looked⟩ := Option.isSome_iff_exists.1 found
        obtain ⟨d', declared', owner, _⟩ := frameFits x w (Frame.mem_of_lookup looked)
        rw [declared] at declared'
        cases declared'
        exact owner
    · next other =>
      obtain ⟨frames', replaced, renewed⟩ := ih held
      refine ⟨first :: frames', ?_, .cons (.refl first) renewed⟩
      have missing := frameFits.lookup_eq_none declared other
      rw [Stack.replaceFirst?, Frame.assign?, missing, replaced]
      rfl

theorem Standing.assign (h : L.Standing (P :: points) frames) {x : Nat} {d : Declaration} {v : Value}
    (seen : x ∈ P.visible) (declared : L.declarations[x]? = some d)
    (fills : L.Fills v (some d.type)) :
    ∃ frames', Stack.replaceFirst? (Frame.assign? x v) frames = some frames' ∧
      L.Standing (P :: points) frames' := by
  obtain ⟨d', frame, declared', held, found⟩ := h.covers x seen
  rw [declared] at declared'
  cases declared'
  obtain ⟨frames', replaced, renewed⟩ :=
    replaceFirst?_renews h.fits declared fills held found
  exact ⟨frames', replaced, h.renew renewed⟩

theorem Covers.declare {symbols : List Nat}
    (h : L.Covers (P :: points) (frame :: frames) symbols) {x : Nat} {d : Declaration}
    (declared : L.declarations[x]? = some d) (owner : d.owner = P.function) (v : Value) :
    L.Covers (P.see [x] :: points) (Frame.set x v frame :: frames) (x :: symbols) := by
  have same : (P.see [x]).function = P.function := rfl
  intro y mem
  rcases List.mem_cons.1 mem with rfl | mem
  · refine ⟨d, Frame.set y v frame, declared, ?_, ?_⟩
    · rw [holder?, if_pos (same.trans owner.symm)]
    · simp [Frame.lookup_set]
  · obtain ⟨d', holder, declared', held, found⟩ := h y mem
    unfold holder? at held
    split at held
    · next here =>
      cases held
      refine ⟨d', Frame.set x v frame, declared', ?_, Frame.isSome_lookup_set found⟩
      rw [holder?, if_pos (same.trans here)]
    · next other =>
      refine ⟨d', holder, declared', ?_, found⟩
      rw [holder?, same, if_neg other]
      exact held

/-- What is declared goes to the frame of the innermost call, and can be seen from there on. -/
theorem Standing.declare (h : L.Standing (P :: points) (frame :: frames)) {x : Nat} {d : Declaration}
    {v : Value} (declared : L.declarations[x]? = some d) (owner : d.owner = P.function)
    (fills : L.Fills v (some d.type)) :
    L.Standing (P.see [x] :: points) (Frame.set x v frame :: frames) := by
  have covers := h.covers.declare declared owner v
  have owned : L.Owned (P.see [x]) := by
    intro y mem
    rcases List.mem_cons.1 mem with rfl | mem
    · exact ⟨d, declared, fun f same => List.mem_of_head? (owner.symm.trans same)⟩
    · exact h.owned y mem
  cases h with
  | script chain _ fits =>
    rw [Point.function, chain] at owner
    exact .script chain owned (fits.set declared owner fills) covers
  | call chain distinct nested _ fits _ below =>
    rw [Point.function, chain] at owner
    exact .call chain distinct nested owned (fits.set declared owner fills) covers below

/-- Parameters with the arguments of a call fill a frame that fits the function. -/
theorem bind?_fits {σ : Setting} (tables : σ.tables = L.tables) {function : Nat}
    {parameters : List Parameter} {values : List Value}
    (declared : ∀ p ∈ parameters, ∃ x, L.tables.symbols.get? p.mark.id = some x ∧
      L.declarations[x]? = some (p.declaration function))
    (fills : L.FillAll values (parameters.map Parameter.type))
    (fits : L.FrameFits (some function) frame) :
    ∃ frame', σ.bind? parameters values frame = some frame' ∧
      L.FrameFits (some function) frame' ∧
      (∀ x, (frame.lookup x).isSome = true → (frame'.lookup x).isSome = true) ∧
      ∀ x ∈ parameters.filterMap (fun p => L.tables.symbols.get? p.mark.id),
        (frame'.lookup x).isSome = true := by
  induction parameters generalizing values frame with
  | nil =>
    cases fills
    exact ⟨frame, rfl, fits, fun _ h => h, by simp⟩
  | cons p parameters ih =>
    cases fills with
    | @cons v _ values _ first others =>
      obtain ⟨x, recorded, known⟩ := declared p List.mem_cons_self
      have others_declared := fun q (mem : q ∈ parameters) =>
        declared q (List.mem_cons_of_mem _ mem)
      obtain ⟨frame', bound, fits', kept, held⟩ :=
        ih others_declared others (fits.set known rfl first)
      refine ⟨frame', ?_, fits', ?_, ?_⟩
      · rw [Setting.bind?, tables, recorded, Option.bind_some, bound]
      · exact fun y h => kept y (Frame.isSome_lookup_set h)
      · intro y mem
        rw [List.filterMap_cons, recorded] at mem
        rcases List.mem_cons.1 mem with rfl | mem
        · exact kept y (by simp [Frame.lookup_set])
        · exact held y mem

/-- A call of a function that can be called adds a frame for its body. -/
theorem Standing.enter {σ : Setting} {site : Site} {values : List Value}
    (h : L.Standing (P :: points) frames) (tables : σ.tables = L.tables) (sound : L.Sound site)
    (visible : site.point.visible ⊆ P.visible) (nested : site.point.chain <:+ P.chain)
    (fills : L.FillAll values (site.decl.parameters.map Parameter.type)) :
    ∃ frame, σ.bind? site.decl.parameters values [] = some frame ∧
      L.Standing (site.point.inside L.tables site.decl :: P :: points) (frame :: frames) := by
  obtain ⟨frame, bound, fits, _, held⟩ :=
    @bind?_fits L [] σ tables _ _ _ sound.parameters fills (by simp [FrameFits])
  have parameter : ∀ x ∈ site.decl.parameters.filterMap fun p => L.tables.symbols.get? p.mark.id,
      ∃ p, L.declarations[x]? = some (Parameter.declaration site.decl.mark.id p) := by
    intro x mem
    obtain ⟨p, known, recorded⟩ := List.mem_filterMap.1 mem
    obtain ⟨y, recorded', declared⟩ := sound.parameters p known
    rw [recorded] at recorded'
    cases recorded'
    exact ⟨p, declared⟩
  refine ⟨frame, bound, .call rfl sound.distinct nested (fun x mem => ?_) fits (fun x mem => ?_) h⟩
  · rcases List.mem_append.1 mem with inner | outer
    · obtain ⟨p, declared⟩ := parameter x inner
      exact ⟨_, declared, fun f same => Option.some.inj same ▸ List.mem_cons_self⟩
    · obtain ⟨d, declared, around⟩ := sound.owned x outer
      exact ⟨d, declared, fun f same => List.mem_cons_of_mem _ (around f same)⟩
  rcases List.mem_append.1 mem with inner | outer
  · obtain ⟨p, declared⟩ := parameter x inner
    exact ⟨_, frame, declared, if_pos rfl, held x inner⟩
  · obtain ⟨d, owned, around⟩ := sound.owned x outer
    obtain ⟨d', holder, declared, there, found⟩ := h.covers x (visible outer)
    rw [owned] at declared
    cases declared
    refine ⟨d, holder, owned, ?_, found⟩
    -- The function itself declares nothing that its site sees.
    have other : (site.point.inside L.tables site.decl).function ≠ d.owner := by
      intro own
      exact (List.nodup_cons.1 sound.distinct).1 (around _ own.symm)
    rw [holder?, if_neg other]
    exact there

theorem Standing.leave (h : L.Standing (P :: Q :: points) frames) :
    ∃ frame frames', frames = frame :: frames' ∧ L.Standing (Q :: points) frames' := by
  cases h with
  | call _ _ _ _ _ _ below => exact ⟨_, _, rfl, below⟩

end Layout

end CursorScript
